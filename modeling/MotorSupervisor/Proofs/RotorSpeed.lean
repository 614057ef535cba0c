import MotorSupervisor.Proofs.Binary.Number
import MotorSupervisor.Proofs.RotorCalls
import MotorSupervisor.Proofs.Span

/-!
# Speed of a rotor

A rotor follows the speed of its duty, and it is rounded at every operation.  On
the way up it may go too far, but not as far again.  On the way down it may fall
below zero, where it has to stall, and nothing else takes it out of its speeds
if the largest of them can be multiplied by any time.

**Definitions.**
* `SimulationConfig.topSpeed`: the speed at full duty without load.
* `SimulationConfig.Bounded`: what keeps speed and supply within the numbers.
* `RotorCall.Proper`: durations that fit, duties that are numbers.
* `Rotor.Within`: the speeds of a rotor are magnitudes up to a power of two.
* `Rotor.speedAt`: the speed of a spin-up by the time that is left of it.

**Results.**
* `SimulationConfig.valid_iff`: the rules of the parameters.
* `approach_mem`, `approach_le`: a step up, and a step down.
* `SimulationConfig.noLoadSpeed_mem`: speeds of duties.
* `speedAt_mem`: a spin-up does not go beyond its target.
* `spinupSpeed_mem`, `speedAfter_mem`: one span of time.
* `within_call`: what every call preserves.
-/

namespace MotorSupervisor

open Binary Format

section Approach

variable {s n dt d : Single} {k : Nat}
variable (hs : s.IsMagnitude) (hn : n.IsMagnitude) (hdt : dt.IsMagnitude) (hd : d.IsMagnitude)
variable (hpos : 0 < d.toRat)
include hs hn hdt hd hpos

/-- A step up to a magnitude goes at most as far again. -/
theorem approach_mem (hshare : dt.toRat ≤ d.toRat) (hle : s.toRat ≤ n.toRat)
    (hmost : n.toRat ≤ 2 ^ k) (hk : k + 1 < 128)
    (hfits : single.rounded (n.toRat * dt.toRat) < single.overflow) :
    (s + (n - s) * dt / d).IsMagnitude ∧ (s + (n - s) * dt / d).toRat ≤ 2 ^ (k + 1) := by
  have hroom : ∀ j, j < 128 → (2 : ℚ) ^ j < single.overflow := fun j hj => by
    rw [overflow_single]
    exact pow_lt_pow_right₀ (by norm_num) hj
  obtain ⟨u, hu⟩ := sub_eq_round hn.finite hs.finite
  obtain ⟨hgap, hgap'⟩ := round_mem_of_le hn.rounded hn.lt_overflow (sub_nonneg.2 hle)
    (sub_le_self _ hs.nonneg) u
  rw [← hu] at hgap hgap'
  have hproduct : single.rounded ((n - s).toRat * dt.toRat) < single.overflow :=
    (rounded_mono (mul_nonneg hgap.nonneg hdt.nonneg)
      (mul_le_mul_of_nonneg_right hgap' hdt.nonneg)).trans_lt hfits
  obtain ⟨hscaled, hvalue⟩ := mul_spec hgap hdt hproduct
  have hscaled' : ((n - s) * dt).toRat ≤ 2 ^ k * dt.toRat := by
    rw [hvalue]
    exact rounded_le (rounded_two_pow_mul hdt.rounded k) (mul_nonneg hgap.nonneg hdt.nonneg)
      (mul_le_mul_of_nonneg_right (hgap'.trans hmost) hdt.nonneg)
  have hquotient : ((n - s) * dt).toRat / d.toRat ≤ 2 ^ k := by
    rw [div_le_iff₀ hpos]
    exact hscaled'.trans (mul_le_mul_of_nonneg_left hshare (by positivity))
  obtain ⟨v, hv⟩ := div_eq_round hscaled.finite hd.finite hpos.ne'
  obtain ⟨hstep, hstep'⟩ := round_mem_of_le (rounded_two_pow_single k) (hroom k (by omega))
    (div_nonneg hscaled.nonneg hpos.le) hquotient v
  rw [← hv] at hstep hstep'
  obtain ⟨w, hw⟩ := add_eq_round hs.finite hstep.finite
  have hsum : s.toRat + ((n - s) * dt / d).toRat ≤ 2 ^ (k + 1) := by
    rw [pow_succ]
    linarith
  rw [hw]
  exact round_mem_of_le (rounded_two_pow_single (k + 1)) (hroom (k + 1) hk)
    (add_nonneg hs.nonneg hstep.nonneg) hsum w

/-- A step down to a magnitude does not lead up. -/
theorem approach_le (hle : n.toRat ≤ s.toRat) : s + (n - s) * dt / d ≤ s := by
  obtain ⟨u, hu⟩ := sub_eq_round hn.finite hs.finite
  have hlow : (-s).isFinite := by
    rw [isFinite_neg]
    exact hs.finite
  have hlow' : (-s).toRat ≤ n.toRat - s.toRat := by
    rw [toRat_neg]
    linarith [hn.nonneg]
  have hhigh : n.toRat - s.toRat ≤ (0 : Single).toRat := by
    rw [zero_mem.2]
    linarith
  obtain ⟨hgap, -, hgap'⟩ := round_mem hlow zero_mem.1 hlow' hhigh u
  rw [← hu, zero_mem.2] at hgap'
  rw [← hu] at hgap
  obtain ⟨v, hv⟩ := mul_eq_round hgap hdt.finite
  have hscaled : (n - s) * dt ≤ 0 := by
    rw [hv]
    apply round_le_of_le zero_mem.1
    rw [zero_mem.2]
    exact mul_nonpos_of_nonpos_of_nonneg hgap' hdt.nonneg
  exact add_le_left hs.finite (div_le_zero hscaled hd.finite hpos)

end Approach

section Share

variable {a b : Single} (ha : a.IsMagnitude) (hb : b.IsMagnitude) (hpos : 0 < b.toRat)
  (hle : a.toRat ≤ b.toRat)
include ha hb hpos hle

/-- The share that a part has in its whole. -/
theorem div_mem_of_le : (a / b).IsMagnitude ∧ (a / b).toRat ≤ 1 := by
  have hroom : (1 : ℚ) < single.overflow := by
    rw [overflow_single]
    norm_num
  obtain ⟨u, hu⟩ := div_eq_round ha.finite hb.finite hpos.ne'
  rw [hu]
  exact round_mem_of_le rounded_one_single hroom (div_nonneg ha.nonneg hpos.le)
    ((div_le_one hpos).2 hle) u

/-- What is left of a whole when a part of it is gone. -/
theorem one_sub_div_mem : (1 - a / b).IsMagnitude ∧ (1 - a / b).toRat ≤ 1 := by
  have hroom : (1 : ℚ) < single.overflow := by
    rw [overflow_single]
    norm_num
  obtain ⟨hshare, hshare'⟩ := div_mem_of_le ha hb hpos hle
  obtain ⟨v, hv⟩ := sub_eq_round one_mem.1 hshare.finite
  rw [hv, one_mem.2]
  exact round_mem_of_le rounded_one_single hroom (sub_nonneg.2 hshare')
    (sub_le_self _ hshare.nonneg) v

end Share

namespace SimulationConfig

variable {c : SimulationConfig}

/-- The rules of the parameters, one by one. -/
theorem valid_iff :
    c.Valid ↔ ¬ c.busVoltage ≤ 0 ∧ ¬ c.kv ≤ 0 ∧ (c.poles ≠ 0 ∧ c.poles % 2 = 0) ∧
      c.timeConstantMillis ≠ 0 ∧ c.minCommutationPeriod ≠ 0 := by
  unfold Valid violation?
  split_ifs <;> simp <;> tauto

/-- Speed at full duty without load. -/
def topSpeed (c : SimulationConfig) : Single :=
  (Rotor.atRest c).noLoadSpeed 1

/-- The parameters of the supply are finite, and so is the speed at full duty
times any time. -/
structure Bounded (c : SimulationConfig) : Prop where
  travel : (c.topSpeed * Span.longest.toSeconds).isFinite
  sourceResistance : c.sourceResistance.isFinite
  fullLoadCurrent : c.fullLoadCurrent.isFinite

instance (c : SimulationConfig) : Decidable c.Bounded :=
  decidable_of_iff ((c.topSpeed * Span.longest.toSeconds).isFinite ∧
      c.sourceResistance.isFinite ∧ c.fullLoadCurrent.isFinite)
    ⟨fun h => ⟨h.1, h.2.1, h.2.2⟩, fun h => ⟨h.travel, h.sourceResistance, h.fullLoadCurrent⟩⟩

/-- The standard motor keeps to the rules and is bounded. -/
theorem standard_spec : standard.Valid ∧ standard.Bounded ∧ 0 ≤ standard.stallRpm := by
  decide +kernel

variable (hvalid : c.Valid)
include hvalid

/-- A top speed that is finite has finite factors. -/
theorem factors_of_topSpeed (h : c.topSpeed.isFinite) :
    c.busVoltage.IsMagnitude ∧ c.kv.IsMagnitude ∧ (1 * c.busVoltage).isFinite := by
  obtain ⟨hbus, hkv, -⟩ := valid_iff.1 hvalid
  obtain ⟨hfull, hkv'⟩ : (1 * c.busVoltage).isFinite ∧ c.kv.isFinite := isFinite_of_mul h
  have hbus' := (isFinite_of_mul hfull).2
  rw [le_iff_toRat hbus' zero_mem.1, zero_mem.2, not_le] at hbus
  rw [le_iff_toRat hkv' zero_mem.1, zero_mem.2, not_le] at hkv
  exact ⟨⟨hbus', hbus.le⟩, ⟨hkv', hkv.le⟩, hfull⟩

/-- Speeds of duties are magnitudes up to the top speed. -/
theorem noLoadSpeed_mem (h : c.topSpeed.isFinite) {r : Rotor} (hr : r.config = c) {duty : Single}
    (hduty : duty.InUnit) :
    (r.noLoadSpeed duty).IsMagnitude ∧ (r.noLoadSpeed duty).toRat ≤ c.topSpeed.toRat := by
  obtain ⟨hbus, hkv, hfull⟩ := factors_of_topSpeed hvalid h
  have hone : (1 : Single).IsMagnitude := ⟨one_mem.1, by rw [one_mem.2]; norm_num⟩
  obtain ⟨hlow, hhigh⟩ := (inUnit_iff_toRat hduty.isFinite).1 hduty
  obtain ⟨hvoltage, hvoltage'⟩ := mul_mem_of_le ⟨hduty.isFinite, hlow⟩ hone hbus
    (by rwa [one_mem.2]) hfull
  have hfull' := (mul_mem_of_le hone hone hbus le_rfl hfull).1
  subst hr
  exact mul_mem_of_le hvoltage hfull' hkv hvoltage' h

theorem isMagnitude_topSpeed (h : c.topSpeed.isFinite) : c.topSpeed.IsMagnitude :=
  (noLoadSpeed_mem hvalid h (r := Rotor.atRest c) rfl inUnit_one).1

/-- What can be multiplied by the longest time has room for its power of two. -/
theorem topSpeed_le (hbounded : c.Bounded) : c.topSpeed.toRat ≤ 2 ^ 64 := by
  have htop := isMagnitude_topSpeed hvalid (isFinite_of_mul hbounded.travel).1
  obtain ⟨hlongest, hvalue⟩ := Span.toSeconds_longest
  have htravel := (isFinite_mul_iff htop hlongest).1 hbounded.travel
  rw [hvalue, mul_comm, rounded_two_pow_mul htop.rounded, overflow_single] at htravel
  by_contra hlarge
  linarith

end SimulationConfig

/-- A duration that fits, or a command whose duties are numbers. -/
def RotorCall.Proper : RotorCall → Prop
  | .command (.start target spinup _) => target.isNaN = false ∧ spinup.isNaN = false
  | .command .stop => True
  | .command (.setDuty duty) => duty.isNaN = false
  | .advance elapsed => elapsed.Fits

namespace Rotor

/-- Speeds up to a power of two, and a duty from `0` to `1`. -/
structure Within (k : Nat) (r : Rotor) : Prop where
  duty : r.duty.InUnit
  speed : r.speed.IsMagnitude ∧ r.speed.toRat ≤ 2 ^ (k + 1)
  target : r.spinupTarget.IsMagnitude ∧ r.spinupTarget.toRat ≤ 2 ^ k

theorem zero_within (k : Nat) : (0 : Single).IsMagnitude ∧ (0 : Single).toRat ≤ 2 ^ k := by
  refine ⟨isMagnitude_zero, ?_⟩
  rw [zero_mem.2]
  positivity

theorem within_atRest (k : Nat) (config : SimulationConfig) : (atRest config).Within k where
  duty := inUnit_zero
  speed := zero_within (k + 1)
  target := zero_within k

variable {r : Rotor} {k : Nat} {elapsed : Span}

/-- Speed of a spin-up with some time left. -/
def speedAt (left : Span) (r : Rotor) : Single :=
  r.spinupTarget * (1 - left.toSeconds / r.spinupTime.toSeconds)

theorem spinupTime_spec (htime : r.spinupTime ≠ .zero) :
    r.spinupTime.toSeconds.IsMagnitude ∧ 0 < r.spinupTime.toSeconds.toRat := by
  have hfits : r.spinupTime.Fits := Span.fits_ofMillis _
  have hpos : Span.zero < r.spinupTime :=
    Nat.pos_of_ne_zero fun hzero => htime (Span.ext hzero)
  exact ⟨(Span.toSeconds_spec hfits).1, Span.toSeconds_pos hfits hpos⟩

theorem left_spec {left : Span} (hleft : left ≤ r.spinupTime) :
    left.toSeconds.IsMagnitude ∧ left.toSeconds.toRat ≤ r.spinupTime.toSeconds.toRat := by
  have hfits : r.spinupTime.Fits := Span.fits_ofMillis _
  have hfits' : left.Fits := lt_of_le_of_lt hleft hfits
  exact ⟨(Span.toSeconds_spec hfits').1, Span.toSeconds_mono hfits' hfits hleft⟩

/-- The speed of a spin-up is part of its target. -/
theorem speedAt_mem {left : Span} (htime : r.spinupTime ≠ .zero) (hleft : left ≤ r.spinupTime)
    (htarget : r.spinupTarget.IsMagnitude) :
    (r.speedAt left).IsMagnitude ∧ (r.speedAt left).toRat ≤ r.spinupTarget.toRat := by
  obtain ⟨htotal, hpos⟩ := spinupTime_spec htime
  obtain ⟨hpart, hpart'⟩ := left_spec hleft
  obtain ⟨hdone, hdone'⟩ := one_sub_div_mem hpart htotal hpos hpart'
  obtain ⟨z, hz⟩ := mul_eq_round htarget.finite hdone.finite
  rw [speedAt, hz]
  exact round_mem_of_le htarget.rounded htarget.lt_overflow
    (mul_nonneg htarget.nonneg hdone.nonneg) (mul_le_of_le_one_right htarget.nonneg hdone') z

/-- During spin-up the speed is part of the target. -/
theorem spinupSpeed_mem (elapsed : Span) (h : r.Within k) (hsettled : r.Settled)
    (htime : r.spinupTime ≠ .zero) :
    let speed := r.spinupTarget *
      (1 - (r.spinupLeft - elapsed).toSeconds / r.spinupTime.toSeconds)
    speed.IsMagnitude ∧ speed.toRat ≤ 2 ^ k := by
  intro speed
  obtain ⟨htarget, htarget'⟩ := h.target
  have hleft : r.spinupLeft - elapsed ≤ r.spinupTime := (Nat.sub_le _ _).trans hsettled.left
  obtain ⟨hspeed, hspeed'⟩ := speedAt_mem htime hleft htarget
  exact ⟨hspeed, hspeed'.trans htarget'⟩

section Bounded

variable (hvalid : r.config.Valid)
include hvalid

/-- The parts of a step of a running rotor. -/
theorem weight_spec (hfits : elapsed.Fits) :
    let dt := elapsed.toSeconds
    let weight := r.timeConstant.toSeconds + dt
    dt.IsMagnitude ∧ weight.IsMagnitude ∧ 0 < weight.toRat ∧ dt.toRat ≤ weight.toRat := by
  intro dt weight
  have hfits' : r.timeConstant.Fits := Span.fits_ofMillis _
  have hpos : Span.zero < r.timeConstant := by
    obtain ⟨-, -, -, hconstant, -⟩ := SimulationConfig.valid_iff.1 hvalid
    have hmillis : 0 < r.config.timeConstantMillis.toNat := UInt64.pos_iff_ne_zero.2 hconstant
    show 0 < r.config.timeConstantMillis.toNat * 1000000
    omega
  obtain ⟨htau, -⟩ := Span.toSeconds_spec hfits'
  obtain ⟨hdt, -⟩ := Span.toSeconds_spec hfits
  have hsum : r.timeConstant.toSeconds.toRat + dt.toRat ≤ 2 ^ 65 := by
    linarith [Span.toSeconds_le hfits', Span.toSeconds_le hfits]
  have hroom : (2 : ℚ) ^ 65 < single.overflow := by
    rw [overflow_single]
    norm_num
  obtain ⟨hweight, hvalue⟩ := add_spec htau hdt ((rounded_le (rounded_two_pow_single 65)
    (add_nonneg htau.nonneg hdt.nonneg) hsum).trans_lt hroom)
  refine ⟨hdt, hweight, ?_, ?_⟩
  · rw [hvalue]
    exact (Span.toSeconds_pos hfits' hpos).trans_le
      (le_rounded htau.rounded (le_add_of_nonneg_right hdt.nonneg))
  · rw [hvalue]
    exact le_rounded hdt.rounded (le_add_of_nonneg_left htau.nonneg)

/-- The speed at a duty can be multiplied by a time. -/
theorem travel_lt_overflow (hbounded : r.config.Bounded) {duty : Single} (hduty : duty.InUnit)
    (hfits : elapsed.Fits) :
    single.rounded ((r.noLoadSpeed duty).toRat * elapsed.toSeconds.toRat) < single.overflow := by
  have htop := (isFinite_of_mul hbounded.travel).1
  obtain ⟨hspeed, hspeed'⟩ := SimulationConfig.noLoadSpeed_mem hvalid htop rfl hduty
  obtain ⟨hlongest, hvalue⟩ := Span.toSeconds_longest
  obtain ⟨hdt, -⟩ := Span.toSeconds_spec hfits
  have hmost := (isFinite_mul_iff (SimulationConfig.isMagnitude_topSpeed hvalid htop)
    hlongest).1 hbounded.travel
  have hdt' : elapsed.toSeconds.toRat ≤ Span.longest.toSeconds.toRat := by
    rw [hvalue]
    exact Span.toSeconds_le hfits
  have hproduct := mul_le_mul hspeed' hdt' hdt.nonneg (hspeed.nonneg.trans hspeed')
  exact (rounded_mono (mul_nonneg hspeed.nonneg hdt.nonneg) hproduct).trans_lt hmost

variable (hbounded : r.config.Bounded) (hmost : r.config.topSpeed.toRat ≤ 2 ^ k) (hk : k + 1 < 128)
include hbounded hmost hk

/-- A running rotor keeps to its speeds unless it falls below zero. -/
theorem speedAfter_mem (h : r.Within k) (hfits : elapsed.Fits) (hneg : ¬ r.speedAfter elapsed < 0) :
    (r.speedAfter elapsed).IsMagnitude ∧ (r.speedAfter elapsed).toRat ≤ 2 ^ (k + 1) := by
  obtain ⟨hspeed, hspeed'⟩ := h.speed
  have htop := (isFinite_of_mul hbounded.travel).1
  obtain ⟨htarget, htarget'⟩ := SimulationConfig.noLoadSpeed_mem hvalid htop rfl h.duty
  obtain ⟨hdt, hweight, hpos, hshare⟩ := weight_spec hvalid hfits
  rcases le_total r.speed.toRat (r.noLoadSpeed r.duty).toRat with hup | hdown
  · exact approach_mem hspeed htarget hdt hweight hpos hshare hup (htarget'.trans hmost) hk
      (travel_lt_overflow hvalid hbounded h.duty hfits)
  · have hle : r.speedAfter elapsed ≤ r.speed :=
      approach_le hspeed htarget hdt hweight hpos hdown
    have hnonneg := (not_lt_iff_le ((le_iff _ _).1 hle).1 isNaN_zero).1 hneg
    have hfinite : (r.speedAfter elapsed).isFinite :=
      Between.isFinite (Or.inl ⟨hnonneg, hle⟩) zero_mem.1 hspeed.finite
    rw [le_iff_toRat hfinite hspeed.finite] at hle
    exact ⟨.of_not_neg hfinite hneg, hle.trans hspeed'⟩

/-- Calls keep the rotor within its speeds, as long as it stalls before it would
turn backwards. -/
theorem within_call {x : RotorCall} (hx : x.Proper) (hsettled : r.Settled) (h : r.Within k)
    (hstalls : ∀ elapsed, x = .advance elapsed → r.state = .running →
      r.speedAfter elapsed < 0 → r.speedAfter elapsed < r.config.stallRpm) :
    (r.call x).Within k := by
  match x with
  | .command (.start target spinup reverse) =>
      show (r.start target spinup reverse).1.Within k
      by_cases hidle : r.state = .idle
      · have htop := (isFinite_of_mul hbounded.travel).1
        obtain ⟨htarget, htarget'⟩ := SimulationConfig.noLoadSpeed_mem hvalid htop (r := r) rfl
          (inUnit_admissible hx.2)
        rw [start_of_idle r target spinup reverse hidle]
        exact ⟨inUnit_admissible hx.1, h.speed, htarget, htarget'.trans hmost⟩
      · rwa [start_of_not_idle target spinup reverse hidle]
  | .command .stop => exact ⟨inUnit_zero, zero_within (k + 1), h.target⟩
  | .command (.setDuty duty) =>
      show (r.setDuty duty).Within k
      by_cases hrunning : r.state = .running
      · rw [setDuty_of_running duty hrunning]
        exact ⟨inUnit_admissible hx, h.speed, h.target⟩
      · rwa [setDuty_of_not_running duty hrunning]
  | .advance elapsed =>
      show (r.advance elapsed).1.Within k
      have hnext : (2 : ℚ) ^ k ≤ 2 ^ (k + 1) := pow_le_pow_right₀ (by norm_num) (Nat.le_succ k)
      cases hstate : r.state with
      | idle =>
          rw [advance_of_idle hstate]
          exact ⟨h.duty, zero_within (k + 1), h.target⟩
      | starting =>
          rw [advance_of_starting hstate]
          split_ifs with hends
          · exact ⟨h.duty, ⟨h.target.1, h.target.2.trans hnext⟩, h.target⟩
          · obtain ⟨hspeed, hspeed'⟩ := spinupSpeed_mem elapsed h hsettled
              fun htime => hends (Or.inr htime)
            exact ⟨h.duty, ⟨hspeed, hspeed'.trans hnext⟩, h.target⟩
      | running =>
          rw [advance_of_running hstate]
          split_ifs with hslow
          · exact ⟨inUnit_zero, zero_within (k + 1), h.target⟩
          · have hneg : ¬ r.speedAfter elapsed < 0 :=
              fun hneg => hslow (hstalls elapsed rfl hstate hneg)
            exact ⟨h.duty, speedAfter_mem hvalid hbounded hmost hk h hx hneg, h.target⟩

end Bounded

end Rotor
end MotorSupervisor
