import MotorSupervisor.Proofs.Binary.Neighbour
import MotorSupervisor.Proofs.ControlStep
import MotorSupervisor.Proofs.Ramp
import MotorSupervisor.Proofs.Run

/-!
# Open loop under the speed cap

In open loop a running motor is driven at its setpoint or at the speed cap,
whichever is smaller.  Although the cap is rounded four times on the way, it
grows with the commutation period, and from half of the limit on it is a duty.
So a motor that turns faster is never driven harder, and a higher setpoint never
makes it be driven less.

**Results.**
* `openLoop_eq`: what the mode demands of a motor that turns.
* `ramp_mono`, `ramp_inUnit`: the cap over commutation periods.
* `rpmOfPeriod_antitone`: a shorter period is a higher speed.
* `open_loop_caps_speed`: the laws of the open-loop mode.
-/

namespace MotorSupervisor

open Binary

/-- A shorter period is a higher speed. -/
theorem PoleCount.rpmOfPeriod_antitone (poles : PoleCount) {fast slow : UInt32}
    (hmoving : fast ≠ 0) (h : fast ≤ slow) : poles.rpmOfPeriod slow ≤ poles.rpmOfPeriod fast := by
  rw [UInt32.le_iff_toNat_le] at h
  have hpos : 0 < fast.toNat := UInt32.lt_iff_toNat_lt.1 (UInt32.pos_iff_ne_zero.2 hmoving)
  have hslow : slow ≠ 0 :=
    UInt32.pos_iff_ne_zero.1 (UInt32.lt_iff_toNat_lt.2 (hpos.trans_le h))
  rw [rpmOfPeriod, rpmOfPeriod, if_neg hslow, if_neg hmoving, UInt32.le_iff_toNat_le,
    UInt32.toNat_div, UInt32.toNat_div]
  exact Nat.div_le_div_left h hpos

namespace ControlState

variable {p : Parameters} {limit fast slow period : UInt32} {s : ControlState}

/-- What the mode demands of a motor that turns. -/
theorem openLoop_eq (hmoving : period ≠ 0) :
    s.openLoop p period =
      ({ s with limits := ⟨decide (s.Capped p period), s.limits.accel⟩ },
        if s.Capped p period then .drive (ramp p.periodLimit period)
        else if 0 < s.dutySetpoint then .drive s.dutySetpoint else .stop) := by
  by_cases hcap : s.Capped p period
  · have hcap' := hcap
    unfold Capped at hcap'
    simp [openLoop, hmoving, hcap, hcap', Limits.insert]
  · have hcap' := hcap
    unfold Capped at hcap'
    simp [openLoop, hmoving, hcap, hcap', Limits.remove]

theorem drive_iff (hmoving : period ≠ 0) {duty : Single} :
    (s.openLoop p period).2 = .drive duty ↔
      (s.Capped p period ∧ ramp p.periodLimit period = duty) ∨
        (¬ s.Capped p period ∧ 0 < s.dutySetpoint ∧ s.dutySetpoint = duty) := by
  rw [openLoop_eq hmoving]
  by_cases hcap : s.Capped p period
  · simp [hcap]
  · by_cases hpos : 0 < s.dutySetpoint <;> simp [hcap, hpos]

theorem ofNat_sub_isFinite (m n : UInt32) :
    (ofNat m.toNat - ofNat n.toNat : Single).isFinite := by
  obtain ⟨hmfin, hmnonneg, hmmax⟩ := ofNat_bounds m.toNat_lt
  obtain ⟨hnfin, hnnonneg, hnmax⟩ := ofNat_bounds n.toNat_lt
  exact (sub_mem_of_exact hmfin hnfin exact_neg_two_pow exact_two_pow (by linarith)
    (by linarith)).1

theorem ofNat_sub_le (limit : UInt32) (h : fast ≤ slow) :
    (ofNat fast.toNat - ofNat (limit / 2).toNat : Single) ≤
      ofNat slow.toNat - ofNat (limit / 2).toNat := by
  have hffin := (ofNat_bounds fast.toNat_lt).1
  have hsfin := (ofNat_bounds slow.toNat_lt).1
  have hle := ofNat_le_ofNat (UInt32.le_iff_toNat_le.1 h) slow.toNat_lt
  exact Binary.sub_le_sub_right hffin hsfin (ofNat_bounds (limit / 2).toNat_lt).1
    ((le_iff_toRat hffin hsfin).2 hle)

/-- The cap grows with the period. -/
theorem ramp_mono (h : fast ≤ slow) (hlimit : 0 < limit.toNat) :
    ramp limit fast ≤ ramp limit slow := by
  obtain ⟨hdfin, hdlow, -⟩ := rampWidth_bounds hlimit
  have hpos := lt_of_lt_of_le (show (0 : ℚ) < 1 / 2 ^ 25 by norm_num) hdlow
  exact Binary.div_le_div_right (ofNat_sub_isFinite fast (limit / 2))
    (ofNat_sub_isFinite slow (limit / 2)) hdfin hpos (ofNat_sub_le limit h)

/-- From half of the limit on, the cap is a duty. -/
theorem ramp_inUnit (hlow : limit / 2 ≤ period) (hhigh : period < limit) :
    (ramp limit period).InUnit := by
  have hlimit : 0 < limit.toNat := by
    rw [UInt32.lt_iff_toNat_lt] at hhigh
    omega
  obtain ⟨hdfin, hdlow, -⟩ := rampWidth_bounds hlimit
  have hpos := lt_of_lt_of_le (show (0 : ℚ) < 1 / 2 ^ 25 by norm_num) hdlow
  obtain ⟨hpfin, -, hpmax⟩ := ofNat_bounds period.toNat_lt
  obtain ⟨hhfin, hhnonneg, -⟩ := ofNat_bounds (limit / 2).toNat_lt
  have hhalf := ofNat_le_ofNat (UInt32.le_iff_toNat_le.1 hlow) period.toNat_lt
  obtain ⟨hnfin, hnlow, -⟩ := sub_mem_of_exact hpfin hhfin exact_zero exact_two_pow
    (by linarith) (by linarith)
  have hmost : (ofNat period.toNat - ofNat (limit / 2).toNat : Single) ≤ rampWidth limit :=
    ofNat_sub_le limit (UInt32.le_of_lt hhigh)
  rw [le_iff_toRat hnfin hdfin] at hmost
  obtain ⟨hfin, hbounds⟩ := div_mem_of_exact hnfin hdfin exact_zero exact_one hpos
    (by rwa [zero_mul]) (by rwa [one_mul])
  exact (inUnit_iff_toRat hfin).2 hbounds

/-- The demand grows with the setpoint and with the period. -/
theorem drive_mono {s' : ControlState} {duty duty' : Single} (hmoving : fast ≠ 0)
    (hperiod : fast ≤ slow) (hsetpoint : s.dutySetpoint ≤ s'.dutySetpoint)
    (hfast : (s.openLoop p fast).2 = .drive duty)
    (hslow : (s'.openLoop p slow).2 = .drive duty') : duty ≤ duty' := by
  have hmoving' : slow ≠ 0 := by
    rintro rfl
    exact hmoving (UInt32.le_zero_iff.1 hperiod)
  rcases (drive_iff hmoving).1 hfast with ⟨hcap, rfl⟩ | ⟨hfree, -, rfl⟩ <;>
    rcases (drive_iff hmoving').1 hslow with ⟨hcap', rfl⟩ | ⟨-, -, rfl⟩
  · exact ramp_mono hperiod (UInt32.lt_iff_toNat_lt.1 (UInt32.lt_of_le_of_lt UInt32.zero_le hcap.1))
  · exact Binary.le_of_lt (Binary.lt_of_lt_of_le hcap.2 hsetpoint)
  · -- not capped at the shorter period, although it is below the limit
    have hlimit : fast < p.periodLimit := UInt32.lt_of_le_of_lt hperiod hcap'.1
    have hramp := isNaN_of_isFinite (ramp_spec hlimit).1
    have hle := (not_lt_iff_le hramp ((le_iff _ _).1 hsetpoint).1).1 fun h => hfree ⟨hlimit, h⟩
    exact Binary.le_trans hle (ramp_mono hperiod
      (UInt32.lt_iff_toNat_lt.1 (UInt32.lt_of_le_of_lt UInt32.zero_le hlimit)))
  · exact hsetpoint

end ControlState

/-- The laws of the open-loop mode for a motor that turns. -/
structure CapsSpeed (p : Parameters) : Prop where
  /-- A positive setpoint drives the motor. -/
  drives : ∀ (s : ControlState) (period : UInt32), 0 < s.dutySetpoint → period ≠ 0 →
    ∃ duty, (s.openLoop p period).2 = .drive duty
  /-- The motor is driven at a finite duty up to the setpoint, the speed limit is
  set when it is driven at less, and the other limit is as it was. -/
  drive : ∀ (s : ControlState) (period : UInt32) (duty : Single), s.dutySetpoint.InUnit →
    period ≠ 0 → (s.openLoop p period).2 = .drive duty →
      duty.isFinite ∧ duty ≤ s.dutySetpoint ∧
        ((s.openLoop p period).1.limits.rpm = true ↔ duty < s.dutySetpoint) ∧
        (s.openLoop p period).1.limits.accel = s.limits.accel
  /-- The speed limit is set at or above the top speed only. -/
  speed : ∀ (s : ControlState) (period : UInt32), period ≠ 0 →
    (s.openLoop p period).1.limits.rpm = true → p.rpmMax ≤ p.poles.rpmOfPeriod period
  /-- From half of the limit on, the cap is a duty. -/
  cap : ∀ period : UInt32, p.periodLimit / 2 ≤ period → period < p.periodLimit →
    (ControlState.ramp p.periodLimit period).InUnit
  /-- A faster motor is not driven harder, and a higher setpoint does not make it
  be driven less. -/
  monotone : ∀ (s s' : ControlState) (fast slow : UInt32) (duty duty' : Single),
    s.dutySetpoint ≤ s'.dutySetpoint → fast ≠ 0 → fast ≤ slow →
      (s.openLoop p fast).2 = .drive duty → (s'.openLoop p slow).2 = .drive duty' →
        duty ≤ duty'
  /-- Wherever the cap is computed, its divisor is positive. -/
  divisor : ∀ period : UInt32, period < p.periodLimit →
    0 < ControlState.rampWidth p.periodLimit

theorem open_loop_caps_speed (p : Parameters) : CapsSpeed p := by
  constructor
  case drives =>
    intro s period hpos hmoving
    by_cases hcap : s.Capped p period
    · exact ⟨_, (ControlState.drive_iff hmoving).2 (Or.inl ⟨hcap, rfl⟩)⟩
    · exact ⟨_, (ControlState.drive_iff hmoving).2 (Or.inr ⟨hcap, hpos, rfl⟩)⟩
  case drive =>
    intro s period duty hunit hmoving hdrive
    have hstate := ControlState.openLoop_eq (p := p) (s := s) hmoving
    rw [hstate]
    rcases (ControlState.drive_iff hmoving).1 hdrive with ⟨hcap, rfl⟩ | ⟨hcap, -, rfl⟩
    · exact ⟨(ControlState.ramp_spec hcap.1).1, Binary.le_of_lt hcap.2, by simp [hcap, hcap.2],
        rfl⟩
    · have hrefl : s.dutySetpoint ≤ s.dutySetpoint := by simp [le_iff, hunit.isNaN]
      exact ⟨hunit.isFinite, hrefl, by simp [hcap, lt_iff], rfl⟩
  case speed =>
    intro s period hmoving hflag
    rw [ControlState.openLoop_eq hmoving] at hflag
    have hcap : s.Capped p period := of_decide_eq_true hflag
    exact p.poles.rpmOfPeriod_antitone hmoving (UInt32.le_of_lt hcap.1)
  case cap => exact fun period => ControlState.ramp_inUnit
  case monotone =>
    intro s s' fast slow duty duty' hsetpoint hmoving hperiod hfast hslow
    exact ControlState.drive_mono hmoving hperiod hsetpoint hfast hslow
  case divisor =>
    intro period hperiod
    rw [UInt32.lt_iff_toNat_lt] at hperiod
    have hlimit : 0 < p.periodLimit.toNat := by omega
    obtain ⟨hfin, hlow, -⟩ := ControlState.rampWidth_bounds hlimit
    rw [lt_iff_toRat zero_mem.1 hfin, zero_mem.2]
    exact lt_of_lt_of_le (by norm_num) hlow

/-- At a limit of three ticks, of which half is one tick, a motor that turns in two
ticks is capped at half of the full duty that is asked of it. -/
theorem open_loop_caps_speed_at_odd_limit :
    let p := Parameters.derive .standard ControlConfig.standard_valid.poles_pos 3
    let s := { ControlState.initial with dutySetpoint := 1 }
    CapsSpeed p ∧ (s.openLoop p 2).2 = .drive 0.5 ∧
      (s.openLoop p 2).1.limits = ⟨true, false⟩ ∧
      p.rpmMax ≤ p.poles.rpmOfPeriod 2 ∧ 0 < ControlState.rampWidth 3 := by
  intro p s
  have hcaps : CapsSpeed p := open_loop_caps_speed p
  have hflag : (s.openLoop p 2).1.limits = ⟨true, false⟩ := by decide +kernel
  refine ⟨hcaps, by decide +kernel, hflag, hcaps.speed s 2 (by decide) ?_,
    hcaps.divisor 2 (by decide)⟩
  rw [hflag]

end MotorSupervisor
