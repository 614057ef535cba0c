import MotorSupervisor.Proofs.Binary.Proportion
import MotorSupervisor.Proofs.CommutationPeriod
import MotorSupervisor.Proofs.Reciprocity

/-!
# The controller reads back the simulated speed

The rotor turns its speed into a commutation period, in the 64-bit format and with
one truncation at the end, and the controller turns the period into a speed again,
with two truncated divisions of whole numbers.  At the same pole count the speed
that is read back is not below the whole revolutions per minute of the rotor, and
above its speed by no more than the truncated part of the period allows.

The roundings of the rotor do not show: they are much smaller than the distance
from one whole number to the next.

**Results.**
* `tracks_quotient`: how far the roundings of the rotor lead.
* `Tracks.cut_bounds`: what is left when the quotient is cut to a whole number.
* `period_bounds`: the period is the truncated quotient, give or take a rounding.
* `floor_le_quotient`, `quotient_le`: what the truncations make of it.
* `speed_read_back`: the speed that the controller reads.
-/

namespace MotorSupervisor

namespace Binary

variable {s p : Double}

/-- Only finite numbers have a value other than zero. -/
theorem isFinite_of_toRat_pos {F : Format} {x : Binary F} (h : 0 < x.toRat) : x.isFinite := by
  cases x with
  | nan => exact absurd h (lt_irrefl 0)
  | infinity s => exact absurd h (lt_irrefl 0)
  | finite s rank => rfl

/-- The ticks of a commutation are four roundings away from the exact quotient. -/
theorem tracks_quotient (hs : s.IsMagnitude) (hp : p.IsMagnitude) (hlow : 1 ≤ s.toRat * p.toRat)
    (hhigh : s.toRat * p.toRat < 200000000) :
    Tracks 4 (200000000 / (s.toRat * p.toRat))
      (ofNat Clock.ticksPerSecond * 60 / (s * p / 2 * 6)) := by
  obtain ⟨hminute, hminute'⟩ := minute_spec
  obtain ⟨htwo, htwo'⟩ := double_two
  obtain ⟨hsix, hsix'⟩ := double_six
  have hturns : 0 < s.toRat * p.toRat / 2 * 6 := by linarith
  have hquotient : 600000000 / (s.toRat * p.toRat / 2 * 6) =
      200000000 / (s.toRat * p.toRat) := by
    rw [div_eq_div_iff hturns.ne' (by linarith)]
    ring
  have hticks : 1 ≤ 200000000 / (s.toRat * p.toRat) ∧
      200000000 / (s.toRat * p.toRat) ≤ 200000000 := by
    rw [one_le_div (by linarith), div_le_iff₀ (by linarith)]
    constructor <;> linarith
  have hproduct := (tracks_self hs).mul hp (by omega) (by linarith) (by linarith)
  have hhalf := hproduct.div htwo (by rw [htwo']; norm_num) (by omega)
    (by rw [htwo']; linarith) (by rw [htwo']; linarith)
  rw [htwo'] at hhalf
  have hturn := hhalf.mul ⟨hsix, by rw [hsix']; norm_num⟩ (by omega)
    (by rw [hsix']; linarith) (by rw [hsix']; linarith)
  rw [hsix'] at hturn
  have hperiod := hturn.div_left hturns ⟨hminute, by rw [hminute']; norm_num⟩ (by omega)
    (by rw [hminute', hquotient]; linarith) (by rw [hminute', hquotient]; linarith)
  rwa [hminute', hquotient] at hperiod

theorem toNat_toWord {y : Double} (hy : y.isFinite) :
    y.toWord.toNat = Min.min (UInt32.size - 1) y.toRat.floor.toNat := by
  cases y with
  | nan => cases hy
  | infinity s => cases hy
  | finite s rank =>
      have hfits : Nat.min (UInt32.size - 1) (finite s rank : Double).toRat.floor.toNat <
          UInt32.size := (Nat.min_le_left _ _).trans_lt (by decide)
      exact UInt32.toNat_ofNat_of_lt' hfits

/-- A number short of the largest word is cut to the whole number below it. -/
theorem toWord_min_bounds {y : Double} (hy : y.IsMagnitude) (hmost : y.toRat < 2 ^ 30) :
    ((y.min (ofNat (UInt32.size - 1))).toWord.toNat : ℚ) ≤ y.toRat ∧
      y.toRat < (y.min (ofNat (UInt32.size - 1))).toWord.toNat + 1 := by
  obtain ⟨hlast, hlast'⟩ := ofNat_double (n := UInt32.size - 1) (by norm_num)
  have hkept : y.min (ofNat (UInt32.size - 1)) = y := by
    rw [min_eq_ite (isNaN_of_isFinite hy.finite) (isNaN_of_isFinite hlast.finite), if_neg]
    rw [lt_iff_toRat hlast.finite hy.finite, hlast', not_lt]
    exact hmost.le.trans (by norm_num)
  have hfloor : 0 ≤ y.toRat.floor := Rat.le_floor_iff.2 (by exact_mod_cast hy.nonneg)
  have hshort : y.toRat.floor < 2 ^ 30 := Rat.floor_lt_iff.2 (by exact_mod_cast hmost)
  have hword : (y.toWord.toNat : ℤ) = y.toRat.floor := by
    have hsize : UInt32.size - 1 = 4294967295 := rfl
    rw [toNat_toWord hy.finite, hsize]
    omega
  have hvalue : (y.toWord.toNat : ℚ) = y.toRat.floor := by
    rw [← hword, Int.cast_natCast]
  rw [hkept, hvalue]
  exact ⟨Rat.floor_le _, by exact_mod_cast Rat.lt_floor_add_one y.toRat⟩

/-- Four roundings do not matter among whole numbers up to two hundred million. -/
theorem slack_four_le : Format.double.slack ^ 4 ≤ 1 + 1 / 10 ^ 9 := by
  decide +kernel

/-- What is left of a tracked quotient when it is cut to a whole number. -/
theorem Tracks.cut_bounds {y : Double} {product : ℚ} (h : Tracks 4 (200000000 / product) y)
    (hproduct : 1 ≤ product) :
    let cut : ℚ := (y.min (ofNat (UInt32.size - 1))).toWord.toNat
    cut * product ≤ (1 + 1 / 10 ^ 9) * 200000000 ∧
      200000000 ≤ (1 + 1 / 10 ^ 9) * ((cut + 1) * product) := by
  intro cut
  have hpos : 0 < product := by linarith
  obtain ⟨hleft, hright⟩ := h.near.weaken slack_four_le (div_nonneg (by norm_num) hpos.le)
    h.magnitude.nonneg
  rw [div_le_iff₀ hpos, mul_assoc] at hleft
  rw [← mul_div_assoc, le_div_iff₀ hpos] at hright
  have hshort : y.toRat < 2 ^ 30 := by
    have hscaled := le_mul_of_one_le_right h.magnitude.nonneg hproduct
    linarith
  obtain ⟨hfloor, hnext⟩ := toWord_min_bounds h.magnitude hshort
  constructor
  · exact (mul_le_mul_of_nonneg_right hfloor hpos.le).trans hright
  · exact hleft.trans (mul_le_mul_of_nonneg_left
      (mul_le_mul_of_nonneg_right hnext.le hpos.le) (by norm_num))

end Binary

section Truncation

variable {speed : ℚ} {poles period : Nat}

/-- The whole part of a speed is not lost, because whole numbers that exceed a bound
exceed it by one. -/
theorem floor_le_quotient (hspeed : 0 ≤ speed) (hpoles : 0 < poles) (hperiod : 0 < period)
    (h : period * (speed * poles) ≤ (1 + 1 / 10 ^ 9) * 200000000) :
    ⌊speed⌋₊ ≤ 200000000 / poles / period := by
  rw [Nat.le_div_iff_mul_le hperiod, Nat.le_div_iff_mul_le hpoles]
  have hproduct : (⌊speed⌋₊ : ℚ) * period * poles ≤ period * (speed * poles) := by
    have hfloor := mul_le_mul_of_nonneg_right (Nat.floor_le hspeed)
      (show (0 : ℚ) ≤ period * poles by positivity)
    linarith
  have hbound : ((⌊speed⌋₊ * period * poles : Nat) : ℚ) < (200000001 : Nat) := by
    push_cast
    linarith
  exact Nat.lt_succ_iff.1 (Nat.cast_lt.1 hbound)

/-- What the truncated period adds to a speed. -/
theorem quotient_le (hspeed : 1 ≤ speed) (hpoles : 0 < poles) (hperiod : 0 < period)
    (hslow : speed * poles < 200000000)
    (h : 200000000 ≤ (1 + 1 / 10 ^ 9) * ((period + 1) * (speed * poles))) :
    ((200000000 / poles / period : Nat) : ℚ) ≤
      speed * 200000000 / (200000000 - speed * poles) + 1 := by
  have hquotient : 200000000 / poles / period * (period * poles) ≤ 200000000 := by
    rw [Nat.div_div_eq_div_mul, Nat.mul_comm poles]
    exact Nat.div_mul_le_self _ _
  generalize 200000000 / poles / period = n at *
  have hn : (n : ℚ) * (period * poles) ≤ 200000000 := by exact_mod_cast hquotient
  have hperiod' : (1 : ℚ) ≤ period := by exact_mod_cast hperiod
  have hpoles' : (1 : ℚ) ≤ poles := by exact_mod_cast hpoles
  generalize hproduct : speed * poles = product at *
  have hnspeed : n * (period * product) ≤ speed * 200000000 := by
    have hscaled := mul_le_mul_of_nonneg_left hn (show 0 ≤ speed by linarith)
    rw [← hproduct]
    linarith
  have hnonneg : (0 : ℚ) ≤ n := Nat.cast_nonneg n
  rw [← sub_le_iff_le_add, le_div_iff₀ (by linarith)]
  rcases le_or_gt 100000000 product with hfast | hslow'
  · -- a period of one tick at least is more than the bound needs
    have hstep : n * (200000000 - product) ≤ n * (period * product) := by
      refine mul_le_mul_of_nonneg_left ?_ hnonneg
      have hwhole := mul_le_mul_of_nonneg_right hperiod' (show 0 ≤ product by linarith)
      linarith
    linarith
  · -- the slack of the roundings is paid for by the last unit
    have hmost : (n : ℚ) ≤ 200000000 := by
      have hone : (1 : ℚ) ≤ period * poles := one_le_mul_of_one_le_of_one_le hperiod' hpoles'
      exact (le_mul_of_one_le_right hnonneg hone).trans hn
    have hshare : (1 - 1 / 10 ^ 9) * 200000000 - product ≤ period * product := by linarith
    have hstep := mul_le_mul_of_nonneg_left hshare hnonneg
    linarith

end Truncation

namespace Rotor

open Binary

variable {r : Rotor}

/-- The period of a rotor that is not too fast for it, without its roundings. -/
theorem period_bounds (hpoles : 0 < r.config.poles) (hspeed : 1 ≤ r.speed.toRat)
    (hslow : r.speed.toRat * r.config.poles.toNat < 200000000) :
    0 < r.period ∧
      r.period.toNat * (r.speed.toRat * r.config.poles.toNat) ≤ (1 + 1 / 10 ^ 9) * 200000000 ∧
      200000000 ≤
        (1 + 1 / 10 ^ 9) *
          ((r.period.toNat + 1) * (r.speed.toRat * r.config.poles.toNat)) := by
  have hfinite : r.speed.isFinite := isFinite_of_toRat_pos (by linarith)
  have hmoving : ¬ r.speed ≤ 0 := by
    rw [le_iff_toRat hfinite zero_mem.1, zero_mem.2]
    linarith
  have hturns : r.period ≠ 0 := by
    rw [Ne, period_eq_zero_iff (UInt32.pos_iff_ne_zero.1 hpoles) hfinite, not_or]
    refine ⟨hmoving, not_lt.2 (hslow.le.trans ?_)⟩
    norm_num
  refine ⟨UInt32.pos_iff_ne_zero.2 hturns, ?_⟩
  obtain ⟨hs, hs'⟩ := toDouble_spec (x := r.speed) ⟨hfinite, by linarith⟩
  obtain ⟨hp, hp'⟩ := ofNat_poles r.config.poles
  have hpole : (1 : ℚ) ≤ r.config.poles.toNat := by exact_mod_cast hpoles
  have hproduct : 1 ≤ r.speed.toRat * r.config.poles.toNat :=
    one_le_mul_of_one_le_of_one_le hspeed hpole
  have hcut := (tracks_quotient hs hp (by rwa [hs', hp']) (by rwa [hs', hp'])).cut_bounds
    (by rwa [hs', hp'])
  rw [hs', hp'] at hcut
  have hperiod : r.period =
      ((ofNat Clock.ticksPerSecond * 60 /
        (r.speed.toFormat Format.double * ofNat r.config.poles.toNat / 2 * 6)).min
          (ofNat (UInt32.size - 1))).toWord := if_neg hmoving
  rw [hperiod]
  exact hcut

/-- At the same pole count the controller reads back the speed of a rotor, which may
be rounded down to whole revolutions per minute or up by what the truncation of the
period adds. -/
theorem speed_read_back (hpoles : 0 < r.config.poles) (hspeed : 1 ≤ r.speed.toRat)
    (hslow : r.speed.toRat * r.config.poles.toNat < 200000000) :
    ∃ rpm, rpmOfPeriod? r.config.poles r.period = .ok rpm ∧
      (∀ c : Controller RotorDriver, c.driver.rotor = r →
        c.parameters.poles.count = r.config.poles → c.status.2.1.rpm = rpm) ∧
      ⌊r.speed.toRat⌋₊ ≤ rpm.toNat ∧
      (rpm.toNat : ℚ) ≤ r.speed.toRat * 200000000 /
        (200000000 - r.speed.toRat * r.config.poles.toNat) + 1 := by
  obtain ⟨hmoving, hlow, hhigh⟩ := period_bounds hpoles hspeed hslow
  rw [UInt32.lt_iff_toNat_lt] at hmoving
  have hcount : 0 < r.config.poles.toNat := UInt32.lt_iff_toNat_lt.1 hpoles
  refine ⟨PoleCount.rpmOfPeriod ⟨r.config.poles, hpoles⟩ r.period, ?_, ?_, ?_, ?_⟩
  · rw [rpmOfPeriod?, PoleCount.of?, dif_pos hpoles]
    rfl
  · rintro c rfl hagree
    have hsame : c.parameters.poles = ⟨c.driver.rotor.config.poles, hpoles⟩ :=
      PoleCount.eq_of_count_eq hagree
    rw [← hsame]
    rfl
  · rw [PoleCount.toNat_rpmOfPeriod, PoleCount.toNat_scale]
    exact floor_le_quotient (by linarith) hcount hmoving hlow
  · rw [PoleCount.toNat_rpmOfPeriod, PoleCount.toNat_scale]
    exact quotient_le hspeed hcount hmoving hslow hhigh

/-- At full duty the motor turns 11040 times a minute, and 11048 is read. -/
theorem speed_read_back_at_full_duty :
    let r := (atRest .standard).after fullSpinup
    (0 < r.config.poles ∧ 1 ≤ r.speed.toRat ∧
      r.speed.toRat * r.config.poles.toNat < 200000000) ∧
    (r.speed = 11040 ∧ rpmOfPeriod? r.config.poles r.period = .ok 11048) ∧
    ∃ rpm, rpmOfPeriod? r.config.poles r.period = .ok rpm ∧
      (∀ c : Controller RotorDriver, c.driver.rotor = r →
        c.parameters.poles.count = r.config.poles → c.status.2.1.rpm = rpm) ∧
      ⌊r.speed.toRat⌋₊ ≤ rpm.toNat ∧
      (rpm.toNat : ℚ) ≤ r.speed.toRat * 200000000 /
        (200000000 - r.speed.toRat * r.config.poles.toNat) + 1 := by
  intro r
  have hrange : 0 < r.config.poles ∧ 1 ≤ r.speed.toRat ∧
      r.speed.toRat * r.config.poles.toNat < 200000000 := by
    decide +kernel
  exact ⟨hrange, by decide +kernel, speed_read_back hrange.1 hrange.2.1 hrange.2.2⟩

end Rotor
end MotorSupervisor
