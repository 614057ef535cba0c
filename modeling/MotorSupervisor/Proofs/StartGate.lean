import MotorSupervisor.Driver.Bench
import MotorSupervisor.Proofs.Setpoint

/-!
# Starts and demands

A motor at rest is started when the active setpoint passes a threshold: the
spin-up duty in open loop, the lowest speed of the configuration in the other
mode.  Without a demand, that is with an active setpoint of zero, the gate is
shut as long as the threshold is above zero.  A lowest speed of zero is an
accepted configuration and opens the gate to a speed setpoint of zero.

There is no demand after bringing the controller up, after a stop and after a
timeout, and only a setter makes one.

**Results.**
* `noDemand_step`, `noDemand_turn`: no demand comes from anything but a setter.
* `starts_iff`, `threshold_of_starts`: which turns command a start, and at what
  threshold setpoints of zero do.
* `starts_on_demand`: starts without a demand, and when there is none.
-/

namespace MotorSupervisor

open Binary

/-- The active setpoint is zero. -/
def ControlState.NoDemand (s : ControlState) : Prop :=
  (s.mode = .openLoop → ¬ 0 < s.dutySetpoint) ∧ (s.mode = .rpmTarget → s.rpmSetpoint = 0)

instance (s : ControlState) : Decidable s.NoDemand :=
  inferInstanceAs (Decidable (_ ∧ _))

/-- A setter is called with a positive setpoint. -/
def Input.Demands {κ : Type} : Input κ → Prop
  | .setDuty duty _ => 0 < duty
  | .setRpm rpm _ => rpm ≠ 0
  | _ => False

theorem ControlState.noDemand_of_zero {s : ControlState} (hduty : s.dutySetpoint = 0)
    (hrpm : s.rpmSetpoint = 0) : s.NoDemand := by
  rw [NoDemand, hduty]
  exact ⟨fun _ => isZero_zero.not_pos, fun _ => hrpm⟩

theorem ControlState.SetpointsKept.noDemand {s s' : ControlState} (h : s.SetpointsKept s')
    (hnone : s.NoDemand) : s'.NoDemand := by
  obtain ⟨hmode, ⟨hduty, hrpm⟩ | ⟨hduty, hrpm⟩⟩ := h
  · unfold NoDemand at hnone ⊢
    rwa [hmode, hduty, hrpm]
  · exact noDemand_of_zero hduty hrpm

namespace Turn

variable {δ : Type} [MotorDriver δ] {t : Turn δ}

/-- The turn commands a start. -/
def Starts (t : Turn δ) : Prop :=
  ∃ target spinup reverse, t.did.command = some (.start target spinup reverse)

/-- The latest setter call is too long ago. -/
def TimedOut (t : Turn δ) : Prop :=
  t.before.timeout ≠ 0 ∧ t.before.timeout < Clock.elapsed t.before.lastSetter t.now

/-- The spin-up duty is rounded to zero. -/
def SpinupVanishes (t : Turn δ) : Prop :=
  t.before.parameters.spinupVoltage.isFinite ∧
    2 ^ 150 * t.before.parameters.spinupVoltage.toRat ≤ t.state.supply.voltage.toRat

theorem noDemand_state (h : t.before.state.NoDemand) : t.state.NoDemand :=
  t.setpointsKept_state.noDemand h

theorem noDemand_after_of_state (h : t.state.NoDemand) : t.after.state.NoDemand :=
  t.setpointsKept_result.noDemand h

theorem noDemand_turn (h : t.before.state.NoDemand) : t.after.state.NoDemand :=
  noDemand_after_of_state (noDemand_state h)

/-- A timeout leaves no demand for the very same turn. -/
theorem noDemand_of_timedOut (h : t.TimedOut) : t.state.NoDemand := by
  obtain ⟨hduty, hrpm⟩ := ControlState.expire_of_lapsed (s := t.before.state) h
  unfold ControlState.NoDemand
  rw [state_dutySetpoint, state_rpmSetpoint]
  exact ⟨fun _ => hduty, fun _ => hrpm⟩

/-- A stop leaves no demand. -/
theorem noDemand_of_stop (h : t.did.command = some .stop) : t.after.state.NoDemand := by
  rw [did_command, result] at h
  rw [after_state, result, ControlState.state_of_stop h]
  exact ControlState.noDemand_of_zero rfl rfl

/-- A start is commanded at rest, if the gate is open. -/
theorem starts_iff :
    t.Starts ↔
      t.readings.runState = .idle ∧ t.state.wantsStart t.before.parameters = true := by
  unfold Starts
  rw [did_command, result]
  cases hrun : t.readings.runState with
  | starting =>
      rw [ControlState.cycle_starting hrun]
      simp
  | idle =>
      rw [ControlState.cycle_idle hrun]
      cases t.state.wantsStart t.before.parameters <;> simp
  | running =>
      cases htarget : t.state.target? t.before.parameters t.readings.period with
      | none =>
          rw [ControlState.cycle_stop hrun htarget]
          simp
      | some target =>
          rw [ControlState.cycle_drive hrun htarget]
          simp

instance (t : Turn δ) : Decidable t.Starts :=
  decidable_of_iff _ starts_iff.symm

/-- Setpoints of zero start a motor only at a threshold that zero reaches. -/
theorem threshold_of_starts (hduty : t.state.dutySetpoint.IsZero)
    (hrpm : t.state.rpmSetpoint = 0) (h : t.Starts) :
    (t.state.mode = .openLoop → t.state.spinupDuty t.before.parameters ≤ 0) ∧
      (t.state.mode = .rpmTarget → t.before.parameters.rpmMin = 0) := by
  obtain ⟨-, hwants⟩ := starts_iff.1 h
  constructor
  · intro hmode
    simp only [ControlState.wantsStart, hmode, decide_eq_true_eq] at hwants
    exact hduty.le_iff_nonpos.1 hwants
  · intro hmode
    simp only [ControlState.wantsStart, hmode, decide_eq_true_eq] at hwants
    rwa [hrpm, UInt32.le_zero_iff] at hwants

/-- Without a demand the gate opens to a speed threshold of zero, or to a
spin-up duty that is rounded to zero. -/
theorem wantsStart_of_noDemand (hnone : t.state.NoDemand)
    (hspinup : 0 < t.before.parameters.spinupVoltage)
    (hfin : t.state.supply.voltage.isFinite) (hpos : 0 < t.state.supply.voltage) :
    (t.state.mode = .rpmTarget →
      (t.state.wantsStart t.before.parameters = true ↔ t.before.parameters.rpmMin = 0)) ∧
    (t.state.mode = .openLoop →
      t.state.wantsStart t.before.parameters = true → t.SpinupVanishes) := by
  constructor
  · intro hmode
    simp only [ControlState.wantsStart, hmode, decide_eq_true_eq]
    rw [hnone.2 hmode]
    exact UInt32.le_zero_iff
  · intro hmode hwants
    have hzero := hnone.1 hmode
    simp only [ControlState.wantsStart, hmode, decide_eq_true_eq] at hwants
    rw [ControlState.spinupDuty, le_iff] at hwants
    obtain ⟨hnan, hsetpoint, hle⟩ := hwants
    rw [pos_iff, hsetpoint] at hzero
    refine (div_le_zero_iff hspinup hfin hpos).1 ?_
    rw [le_iff, ordinal_zero]
    exact ⟨hnan, isNaN_zero, hle.trans (not_lt.1 fun h => hzero ⟨rfl, h⟩)⟩

end Turn

variable {δ : Type} [MotorDriver δ]

/-- Nothing but a setter makes a demand. -/
theorem noDemand_step {input : Input (MotorDriver.Change δ)} {c : Controller δ}
    (hsetter : ¬ input.Demands) (hquiet : Controller.Quiet input c) (h : c.state.NoDemand) :
    (c.step input).1.state.NoDemand := by
  cases input with
  | setDuty duty now =>
      have hduty : ¬ 0 < clampDuty duty := by rwa [(clampDuty_spec duty).2]
      exact ⟨fun _ => hduty, nofun⟩
  | setRpm rpm now =>
      have hrpm : min rpm c.parameters.rpmMax = 0 := by
        rw [not_not.1 hsetter]
        exact if_pos UInt32.zero_le
      exact ⟨nofun, fun _ => hrpm⟩
  | cycle now body =>
      have hidle : c.active = false := hquiet
      simpa [Controller.step, hidle] using h
  | change change => exact h
  | shutdown =>
      simp only [Controller.step]
      split <;> exact h

/-- A run starts the motor on demand: what can be said of its starts without
one, and when there is none.  Starts at a spin-up duty that is rounded to zero
are left out. -/
structure StartsOnDemand (config : ControlConfig) (c : Controller δ)
    (inputs : List (Input (MotorDriver.Change δ))) : Prop where
  /-- A speed setpoint of zero starts the motor only at a threshold of zero. -/
  speed : ∀ t ∈ c.turns inputs, t.state.NoDemand → t.state.mode = .rpmTarget →
    (t.Starts ↔ t.readings.runState = .idle ∧ config.rpmMin = 0)
  /-- A duty setpoint of zero does not start the motor. -/
  duty : ∀ t ∈ c.turns inputs, t.state.NoDemand → t.state.mode = .openLoop →
    t.Starts → t.SpinupVanishes
  /-- Bringing the controller up makes no demand. -/
  initial : c.state.NoDemand
  /-- A stop leaves no demand. -/
  stop : ∀ t ∈ c.turns inputs, t.did.command = some .stop → t.after.state.NoDemand
  /-- A timeout leaves no demand, already for the turn that finds it. -/
  timeout : ∀ t ∈ c.turns inputs, t.TimedOut → t.state.NoDemand ∧ t.after.state.NoDemand
  /-- Without a demand the motor is not started before a setter makes one. -/
  lasting : ∀ past future, inputs = past ++ future → (c.run past).1.state.NoDemand →
    (∀ input ∈ future, ¬ input.Demands) →
      ∀ t ∈ (c.run past).1.turns future, t.state.NoDemand ∧
        (config.rpmMin ≠ 0 → ¬ t.SpinupVanishes → ¬ t.Starts)

/-- Every run starts the motor on demand, as long as the filtered bus voltage
stays positive and finite. -/
theorem starts_on_demand {config : ControlConfig} {start : UInt64} {d : δ}
    {c : Controller δ} (hinit : (Controller.init config start d).1 = .ok c)
    (inputs : List (Input (MotorDriver.Change δ)))
    (hvoltage : ∀ t ∈ c.turns inputs,
      t.state.supply.voltage.isFinite ∧ 0 < t.state.supply.voltage) :
    StartsOnDemand config c inputs := by
  obtain ⟨valid, up, -, -, rfl⟩ := Controller.init_eq_ok_iff.1 hinit
  have hspinup := (ControlConfig.valid_iff.1 valid).2.1
  have hgate : ∀ t ∈ (Controller.broughtUp config valid start up).turns inputs,
      t.state.NoDemand →
        (t.state.mode = .rpmTarget →
          (t.Starts ↔ t.readings.runState = .idle ∧ config.rpmMin = 0)) ∧
        (t.state.mode = .openLoop → t.Starts → t.SpinupVanishes) := by
    intro t ht hnone
    have hparameters := Controller.turns_parameters inputs _ t ht
    have hmin : t.before.parameters.rpmMin = config.rpmMin := by
      rw [hparameters]
      rfl
    have hwants := Turn.wantsStart_of_noDemand hnone (by rw [hparameters]; exact hspinup)
      (hvoltage t ht).1 (hvoltage t ht).2
    rw [hmin] at hwants
    refine ⟨fun hmode => ?_, fun hmode hstarts => hwants.2 hmode (Turn.starts_iff.1 hstarts).2⟩
    rw [Turn.starts_iff, hwants.1 hmode]
  constructor
  case speed => exact fun t ht hnone => (hgate t ht hnone).1
  case duty => exact fun t ht hnone => (hgate t ht hnone).2
  case initial => exact ControlState.noDemand_of_zero rfl rfl
  case stop => exact fun t _ => Turn.noDemand_of_stop
  case timeout =>
    intro t _ htimeout
    have hstate := Turn.noDemand_of_timedOut htimeout
    exact ⟨hstate, Turn.noDemand_after_of_state hstate⟩
  case lasting =>
    intro past future hsplit hnone hsetters t ht
    have hstate := Turn.noDemand_state (Controller.forall_turns_while (H := fun _ => True)
      (fun _ _ => noDemand_step) (fun _ _ => Turn.noDemand_turn) future hnone hsetters
      (fun _ _ => trivial) t ht)
    refine ⟨hstate, fun hmin hvanishes hstarts => ?_⟩
    have hmem : t ∈ (Controller.broughtUp config valid start up).turns inputs := by
      rw [hsplit, Controller.turns_append]
      exact List.mem_append_right _ ht
    obtain ⟨hspeed, hduty⟩ := hgate t hmem hstate
    cases hmode : t.state.mode with
    | rpmTarget => exact hmin ((hspeed hmode).1 hstarts).2
    | openLoop => exact hvanishes (hduty hmode hstarts)

/-- The usual tuning, with a threshold of zero for the speed. -/
def noThreshold : ControlConfig :=
  { ControlConfig.standard with rpmMin := 0 }

theorem noThreshold_valid : noThreshold.Valid := by
  decide +kernel

/-- A stop, a cycle at rest, a new request and a start. -/
def restart : List (Input BenchDriver) :=
  [.setDuty 0 0, .cycle 0 .zero, .setRpm 600 10, .cycle 10 .zero]

theorem starts_on_demand_after_stop :
    let c := Controller.broughtUp .standard ControlConfig.standard_valid 0
      (BenchDriver.standard "bench")
    (Controller.init .standard 0 (BenchDriver.standard "bench")).1 = .ok c ∧
      (∀ t ∈ c.turns restart, t.state.supply.voltage.isFinite ∧ 0 < t.state.supply.voltage) ∧
      StartsOnDemand .standard c restart := by
  intro c
  have hinit : (Controller.init .standard 0 (BenchDriver.standard "bench")).1 = .ok c :=
    Controller.init_eq_ok_iff.2
      ⟨ControlConfig.standard_valid, BenchDriver.standard "bench", rfl, by decide +kernel, rfl⟩
  have hvoltage : ∀ t ∈ c.turns restart,
      t.state.supply.voltage.isFinite ∧ 0 < t.state.supply.voltage := by
    decide +kernel
  exact ⟨hinit, hvoltage, starts_on_demand hinit restart hvoltage⟩

/-- A threshold of zero starts the motor at a speed setpoint of zero. -/
theorem starts_at_zero_speed :
    let c := Controller.broughtUp noThreshold noThreshold_valid 0 (BenchDriver.standard "bench")
    (Controller.init noThreshold 0 (BenchDriver.standard "bench")).1 = .ok c ∧
      (∀ t ∈ c.turns [.setRpm 0 0, .cycle 0 .zero],
        t.state.supply.voltage.isFinite ∧ 0 < t.state.supply.voltage) ∧
      ∃ t ∈ c.turns [.setRpm 0 0, .cycle 0 .zero],
        t.state.mode = .rpmTarget ∧ t.state.rpmSetpoint = 0 ∧ t.Starts := by
  intro c
  refine ⟨Controller.init_eq_ok_iff.2
    ⟨noThreshold_valid, BenchDriver.standard "bench", rfl, by decide +kernel, rfl⟩, ?_⟩
  decide +kernel

end MotorSupervisor
