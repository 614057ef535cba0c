import MotorSupervisor.Driver.Bench
import MotorSupervisor.Proofs.Binary.Neighbour
import MotorSupervisor.Proofs.Clock
import MotorSupervisor.Proofs.DutyRange
import MotorSupervisor.Proofs.LowPass

/-!
# The filtered bus voltage as a divisor

At rest the spin-up voltage is divided by the filtered bus voltage.  With
readings in the accepted range the filtered voltage is a positive number in
every cycle of every run, provided that the product of the time constant and
the highest accepted voltage does not overflow.  Without this proviso, which
the configuration check does not ask for, the filter can be lost in its first
cycle.

**Definitions.**
* `ControlState.VoltageUsable`: a voltage to divide by.
* `Contained`: the invariant, on the filtered voltage and its product with the
  time constant.

**Results.**
* `Contained.lowPass`, `Contained.lowPassScan`: the filter keeps the invariant, also over
  many samples.
* `contained_turn`, `contained_step`: so does every step of a run.
* `voltage_usable_iff`: the proviso is exact.
-/

namespace MotorSupervisor

open Binary Format

/-- A voltage to divide by. -/
def ControlState.VoltageUsable (s : ControlState) : Prop :=
  s.supply.voltage.isFinite ∧ 0 < s.supply.voltage

instance (s : ControlState) : Decidable s.VoltageUsable :=
  inferInstanceAs (Decidable (_ ∧ _))

section Voltage

variable {tau voltage previous sample dt : Single}

theorem maxInputVoltage_spec : maxInputVoltage.IsMagnitude ∧ maxInputVoltage.toRat = 40 :=
  ⟨⟨by decide +kernel, by decide +kernel⟩, by decide +kernel⟩

/-- An accepted reading in rationals. -/
theorem accepted_bounds (hmin : minInputVoltage ≤ voltage) (hmax : voltage ≤ maxInputVoltage) :
    voltage.IsMagnitude ∧ 4 ≤ voltage.toRat ∧ voltage.toRat ≤ 40 := by
  have hlow : minInputVoltage.isFinite ∧ minInputVoltage.toRat = 4 := by decide +kernel
  obtain ⟨hhigh, hhigh'⟩ := maxInputVoltage_spec
  have hfin := Between.isFinite (Or.inl ⟨hmin, hmax⟩) hlow.1 hhigh.finite
  rw [le_iff_toRat hlow.1 hfin, hlow.2] at hmin
  rw [le_iff_toRat hfin hhigh.finite, hhigh'] at hmax
  exact ⟨⟨hfin, by linarith⟩, hmin, hmax⟩

/-- The filtered voltage lies between powers of two, and its product with the
time constant overflows as little as that of an accepted reading. -/
structure Contained (tau voltage : Single) : Prop where
  weight : tau.IsMagnitude
  limit : single.rounded (tau.toRat * 40) < single.overflow
  magnitude : voltage.IsMagnitude
  low : 2 ^ 2 ≤ voltage.toRat
  high : voltage.toRat ≤ 2 ^ 6
  product : single.rounded (tau.toRat * voltage.toRat) < single.overflow

theorem contained_of_accepted (htau : tau.IsMagnitude)
    (hlimit : single.rounded (tau.toRat * 40) < single.overflow)
    (hmin : minInputVoltage ≤ voltage) (hmax : voltage ≤ maxInputVoltage) :
    Contained tau voltage := by
  obtain ⟨hvoltage, hlow, hhigh⟩ := accepted_bounds hmin hmax
  have hproduct := rounded_mono (F := single) (mul_nonneg htau.nonneg hvoltage.nonneg)
    (mul_le_mul_of_nonneg_left hhigh htau.nonneg)
  exact ⟨htau, hlimit, hvoltage, by linarith, by linarith, hproduct.trans_lt hlimit⟩

/-- The filter keeps the invariant. -/
theorem Contained.lowPass (h : Contained tau previous) (hdt : dt.IsMagnitude)
    (hlast : dt.toRat ≤ 2 ^ 41) (hmin : minInputVoltage ≤ sample)
    (hmax : sample ≤ maxInputVoltage) : Contained tau (lowPass tau dt previous sample) := by
  have hsample := contained_of_accepted h.weight h.limit hmin hmax
  have htau := h.weight.rounded
  obtain ⟨hweight, hsum⟩ := weightedSum_lt_overflow htau hdt.rounded hlast h.low hsample.low
    hsample.high h.high h.product
  have haverage (hpos : 0 < single.rounded (dt.toRat + tau.toRat)) :=
    average_mem even_binade_single htau hdt.rounded rounded_one_single hpos h.low
      hsample.low h.high hsample.high
  have hmost : (2 ^ 6 : ℚ) < single.overflow := by
    rw [overflow_single]
    norm_num
  rcases lowPass_spec h.weight hdt h.magnitude hsample.magnitude hweight hsum
    fun hpos => (haverage hpos).2.trans_lt hmost with hsampled | ⟨hpos, hmagnitude, hvalue⟩
  · rwa [hsampled]
  · refine ⟨h.weight, h.limit, hmagnitude, ?_, ?_, ?_⟩ <;> rw [hvalue]
    · exact (haverage hpos).1
    · exact (haverage hpos).2
    · exact mul_average_lt_overflow htau hdt.rounded hlast h.low hsample.low hsample.high h.high
        h.product h.magnitude.rounded hpos

/-- So does the filter over any number of samples. -/
theorem Contained.lowPassScan {samples : List Single} (h : Contained tau previous)
    (hdt : dt.IsMagnitude) (hlast : dt.toRat ≤ 2 ^ 41)
    (hrange : ∀ sample ∈ samples, minInputVoltage ≤ sample ∧ sample ≤ maxInputVoltage) :
    ∀ filtered ∈ lowPassScan tau dt previous samples, Contained tau filtered := by
  induction samples generalizing previous with
  | nil => exact nofun
  | cons sample samples ih =>
      obtain ⟨hsample, hsamples⟩ := List.forall_mem_cons.1 hrange
      have hfiltered := h.lowPass hdt hlast hsample.1 hsample.2
      exact List.forall_mem_cons.2 ⟨hfiltered, ih hfiltered hsamples⟩

theorem Contained.usable {s : ControlState} (h : Contained tau s.supply.voltage) :
    s.VoltageUsable := by
  refine ⟨h.magnitude.finite, ?_⟩
  rw [lt_iff_toRat zero_mem.1 h.magnitude.finite, zero_mem.2]
  exact lt_of_lt_of_le (by norm_num) h.low

end Voltage

section Runs

variable {δ : Type} [MotorDriver δ]

theorem Contained.state {t : Turn δ} (hrange : t.VoltageInRange)
    (h : Contained t.before.parameters.filterTau t.before.state.supply.voltage) :
    Contained t.before.parameters.filterTau t.state.supply.voltage := by
  obtain ⟨hdt, -⟩ := Clock.toSeconds_spec (Clock.elapsed t.before.lastCycle t.now)
  rw [t.state_voltage]
  exact h.lowPass hdt (Clock.toSeconds_le _) hrange.1 hrange.2

theorem contained_turn {t : Turn δ} (hrange : t.VoltageInRange)
    (h : Contained t.before.parameters.filterTau t.before.state.supply.voltage) :
    Contained t.after.parameters.filterTau t.after.state.supply.voltage := by
  have hsupply : t.after.state.supply = t.state.supply := ControlState.cycle_keeps.2.1
  rw [hsupply]
  exact Contained.state hrange h

theorem contained_step {input : Input (MotorDriver.Change δ)} {c : Controller δ}
    (hquiet : Controller.Quiet input c)
    (h : Contained c.parameters.filterTau c.state.supply.voltage) :
    Contained (c.step input).1.parameters.filterTau (c.step input).1.state.supply.voltage := by
  have hkept := Controller.kept_of_quiet hquiet
  rwa [hkept.parameters, hkept.supply]

theorem contained_init {config : ControlConfig} {start : UInt64} {d : δ} {c : Controller δ}
    (hproduct : (config.filterTau * maxInputVoltage).isFinite)
    (hinit : (Controller.init config start d).1 = .ok c) :
    Contained c.parameters.filterTau c.state.supply.voltage := by
  obtain ⟨valid, up, -, hvoltage, rfl⟩ := Controller.init_eq_ok_iff.1 hinit
  obtain ⟨-, -, -, -, htau, -⟩ := ControlConfig.valid_iff.1 valid
  have htauFin := (isFinite_of_mul hproduct).1
  rw [le_iff_toRat zero_mem.1 htauFin, zero_mem.2] at htau
  have hmagnitude : config.filterTau.IsMagnitude := ⟨htauFin, htau⟩
  rw [isFinite_mul_iff hmagnitude maxInputVoltage_spec.1, maxInputVoltage_spec.2] at hproduct
  exact contained_of_accepted hmagnitude hproduct hvoltage.1 hvoltage.2

end Runs

/-- In every run with readings in range, the voltage that a cycle works on and
leaves behind is one to divide by. -/
def ControlConfig.KeepsVoltageUsable (config : ControlConfig) : Prop :=
  ∀ (δ : Type) [MotorDriver δ] (start : UInt64) (d : δ) (c : Controller δ)
    (inputs : List (Input (MotorDriver.Change δ))),
    (Controller.init config start d).1 = .ok c → (∀ t ∈ c.turns inputs, t.VoltageInRange) →
      ∀ t ∈ c.turns inputs, t.state.VoltageUsable ∧ t.after.state.VoltageUsable

/-- A bench at the highest accepted voltage. -/
def highBench : BenchDriver :=
  { BenchDriver.standard "bench" with supply := ⟨maxInputVoltage, 0⟩ }

/-- The first cycle at the highest accepted voltage shows an overflow. -/
theorem isFinite_mul_of_usable {config : ControlConfig} (valid : config.Valid)
    (h : config.KeepsVoltageUsable) : (config.filterTau * maxInputVoltage).isFinite := by
  obtain ⟨-, -, -, -, htau, -⟩ := ControlConfig.valid_iff.1 valid
  let c := Controller.broughtUp config valid 0 highBench
  let t : Turn BenchDriver := ⟨c, 0, .zero⟩
  have hinit : (Controller.init config 0 highBench).1 = .ok c :=
    Controller.init_eq_ok_iff.2 ⟨valid, highBench, rfl, by decide +kernel, rfl⟩
  have hturns : c.turns [.cycle 0 .zero] = [t] := rfl
  have haccepted : minInputVoltage ≤ maxInputVoltage ∧ maxInputVoltage ≤ maxInputVoltage := by
    decide +kernel
  have hrange : t.VoltageInRange := haccepted
  have husable := (h BenchDriver 0 highBench c [.cycle 0 .zero] hinit
    (by rwa [hturns, List.forall_mem_singleton]) t (by simp [hturns])).1
  have hfiltered :
      (lowPass config.filterTau t.elapsed maxInputVoltage maxInputVoltage).isFinite := by
    rw [ControlState.VoltageUsable, t.state_voltage] at husable
    exact husable.1
  by_cases hweight : t.elapsed + config.filterTau ≤ 0
  · obtain ⟨hmagnitude, hzero⟩ :=
      tau_of_no_weight htau (Clock.toSeconds_spec (Clock.elapsed c.lastCycle 0)).1 hweight
    rw [isFinite_mul_iff hmagnitude maxInputVoltage_spec.1, hzero, zero_mul]
    decide +kernel
  · exact isFinite_of_lowPass hweight hfiltered

/-- Under a valid configuration the filtered voltage remains one to divide by
exactly when the time constant times the highest accepted voltage does not
overflow. -/
theorem voltage_usable_iff {config : ControlConfig} (valid : config.Valid) :
    config.KeepsVoltageUsable ↔ (config.filterTau * maxInputVoltage).isFinite := by
  refine ⟨isFinite_mul_of_usable valid, fun hproduct => ?_⟩
  intro δ _ start d c inputs hinit hrange t ht
  have hcontained := Controller.forall_turns_while (P := fun _ => True)
    (fun _ _ _ => contained_step) (fun _ => contained_turn) inputs
    (contained_init hproduct hinit) (fun _ _ => trivial) hrange t ht
  exact ⟨(Contained.state (hrange t ht) hcontained).usable,
    (contained_turn (hrange t ht) hcontained).usable⟩

/-- The usual time constant is two seconds. -/
theorem voltage_usable_standard :
    ControlConfig.standard.Valid ∧
      (ControlConfig.standard.KeepsVoltageUsable ↔
        (ControlConfig.standard.filterTau * maxInputVoltage).isFinite) ∧
      (ControlConfig.standard.filterTau * maxInputVoltage).isFinite :=
  ⟨ControlConfig.standard_valid, voltage_usable_iff ControlConfig.standard_valid,
    by decide +kernel⟩

/-- A filter far slower than any run. -/
def longFilter : ControlConfig :=
  { ControlConfig.standard with filterTau := 1e38 }

theorem longFilter_valid : longFilter.Valid := by
  decide +kernel

/-- The first cycle on twelve volts loses the voltage, and the motor is started
without any duty. -/
theorem voltage_lost_in_first_cycle :
    let d := BenchDriver.standard "bench"
    let c := Controller.broughtUp longFilter longFilter_valid 0 d
    let inputs : List (Input BenchDriver) := [.setDuty 0.5 0, .cycle 0 .zero]
    longFilter.Valid ∧ (Controller.init longFilter 0 d).1 = .ok c ∧
      (∀ t ∈ c.turns inputs, t.VoltageInRange) ∧
      ∃ t ∈ c.turns inputs, ¬ t.state.VoltageUsable ∧ ¬ t.after.state.VoltageUsable ∧
        t.result.command = some (.start 0 0 false) := by
  intro d c inputs
  refine ⟨longFilter_valid, Controller.init_eq_ok_iff.2
    ⟨longFilter_valid, d, rfl, by decide +kernel, rfl⟩, ?_⟩
  decide +kernel

end MotorSupervisor
