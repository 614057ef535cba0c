import MotorSupervisor.Proofs.NumericRotor

/-!
# When the commutation period is zero

The period of a turning rotor is a quotient that is cut to an integer.  It is
zero exactly when the speed times the pole count exceeds two hundred million,
with a little that is rounded away: a minute has six hundred million ticks, and
a turn three commutations for every pole.

The roundings on the way are looked at backwards from the quotient.  Each of
them passes its limit exactly when the operand passes a limit of its own.

**Definitions.**
* `Binary.EvenWithGap`: a number that is rounded to from above up to half of
  the distance to its successor.

**Results.**
* `EvenWithGap.lt_round_iff`, `EvenWithGap.lt_round_mul_iff`: what is rounded
  past such a number.
* `toWord_min_eq_zero_iff`: what is cut to zero.
* `lt_product_iff`, `lt_half_iff`, `lt_mul_six_iff`, `minute_div_spec`: the
  limit through one operation after the other.
* `period_eq_zero_iff`: the period by the exact product.
* `marks_rest_iff`: where the period of a rotor is zero at rest only.
* `period_marks_rest_iff`: so after any calls.
-/

namespace MotorSupervisor

namespace Binary

section Neighbours

variable {F : Format} [NeZero F.infinityRank] {a y : Binary F} {b c q gap : ℚ}

/-- A number whose last bit is even, with the distance to the next number. -/
structure EvenWithGap (a : Binary F) (gap : ℚ) : Prop where
  finite : a.isFinite
  even : a.ordinal % 2 = 0
  next : F.value (a.ordinal + 1) = a.toRat + gap

instance (a : Binary F) (gap : ℚ) : Decidable (a.EvenWithGap gap) :=
  decidable_of_iff (a.isFinite ∧ a.ordinal % 2 = 0 ∧ F.value (a.ordinal + 1) = a.toRat + gap)
    ⟨fun h => ⟨h.1, h.2.1, h.2.2⟩, fun h => ⟨h.finite, h.even, h.next⟩⟩

/-- What is rounded past an even number lies beyond half of its gap. -/
theorem EvenWithGap.lt_round_iff (h : a.EvenWithGap gap) (z : Bool) :
    a < round z q ↔ a.toRat + gap / 2 < q := by
  have hthreshold : F.threshold a.ordinal = a.toRat + gap / 2 := by
    rw [Format.threshold, h.next, ← toRat_eq_value h.finite]
    ring
  rw [← not_iff_not, not_lt_iff_le (isNaN_of_isFinite h.finite) (isNaN_round z q),
    round_le_iff h.finite, not_iff_not, ClearlyAbove, hthreshold]
  simp [h.even]

/-- A number passes an even one as soon as a multiple of it passes a bound short
of that multiple of the next number. -/
theorem EvenWithGap.lt_mul_iff (h : a.EvenWithGap gap) (hy : y.isFinite) (hc : 0 < c)
    (hlow : a.toRat * c ≤ b) (hhigh : b < (a.toRat + gap) * c) :
    b < y.toRat * c ↔ a < y := by
  rw [lt_iff_toRat h.finite hy]
  constructor
  · intro hlt
    exact lt_of_mul_lt_mul_right (hlow.trans_lt hlt) hc.le
  · intro hlt
    rw [toRat_eq_value h.finite, toRat_eq_value hy, F.value_strictMono.lt_iff_lt] at hlt
    have hnext : a.toRat + gap ≤ y.toRat := by
      rw [← h.next, toRat_eq_value hy]
      exact F.value_strictMono.monotone hlt
    exact hhigh.trans_le (mul_le_mul_of_nonneg_right hnext hc.le)

/-- A rounded multiple passes the multiple of an even number exactly when the
number itself is passed, if the gaps leave room for it. -/
theorem EvenWithGap.lt_round_mul_iff {a' : Binary F} {gap' : ℚ} (h : a.EvenWithGap gap)
    (h' : a'.EvenWithGap gap') (hy : y.isFinite) (hc : 0 < c) (hvalue : a'.toRat = a.toRat * c)
    (hgap' : 0 ≤ gap') (hroom : gap' / 2 < gap * c) (z : Bool) :
    a' < round z (y.toRat * c) ↔ a < y := by
  rw [h'.lt_round_iff, hvalue]
  exact h.lt_mul_iff hy hc (by linarith) (by linarith)

end Neighbours

section Word

variable {y : Double}

theorem double_one : (1 : Double).IsMagnitude ∧ (1 : Double).toRat = 1 := by
  exact_mod_cast ofNat_double (n := 1) (by norm_num)

theorem min_eq_ite {x : Double} (hx : x.isNaN = false) (hy : y.isNaN = false) :
    x.min y = if y < x then y else x := by
  cases x with
  | nan => cases hx
  | infinity s =>
      cases y with
      | nan => cases hy
      | infinity t => rfl
      | finite t rank => rfl
  | finite s rank =>
      cases y with
      | nan => cases hy
      | infinity t => rfl
      | finite t rank => rfl

theorem ofNat_min_eq_zero_iff (n : Nat) :
    UInt32.ofNat (Nat.min (UInt32.size - 1) n) = 0 ↔ n = 0 := by
  have hsize : UInt32.size - 1 = 4294967295 := rfl
  have hmin : Nat.min 4294967295 n = Min.min 4294967295 n := rfl
  rw [UInt32.ofNat_eq_iff_mod_eq_toNat, UInt32.toNat_zero, hsize, hmin]
  omega

theorem toWord_eq_zero_iff (hy : y.isFinite) (hneg : ¬ y < 0) : y.toWord = 0 ↔ y.toRat < 1 := by
  cases y with
  | nan => cases hy
  | infinity s => cases hy
  | finite s rank =>
      have hfloor := Rat.floor_lt_iff (a := (finite s rank).toRat) (x := 1)
      rw [Int.cast_one] at hfloor
      rw [toWord, ofNat_min_eq_zero_iff, ← hfloor]
      omega

/-- Of the numbers that are not negative only those below one are cut to zero. -/
theorem toWord_min_eq_zero_iff (hnan : y.isNaN = false) (hneg : ¬ y < 0) :
    (y.min (ofNat (UInt32.size - 1))).toWord = 0 ↔ ¬ 1 ≤ y := by
  obtain ⟨hmost, hmost'⟩ := ofNat_double (n := UInt32.size - 1) (by norm_num)
  obtain ⟨hone, hone'⟩ := double_one
  have hlarge : (1 : ℚ) ≤ (UInt32.size - 1 : Nat) := by norm_num
  have hmostNumber := isNaN_of_isFinite hmost.finite
  have hnonneg := (not_lt_iff_le hnan isNaN_zero).1 hneg
  rw [min_eq_ite hnan hmostNumber]
  split_ifs with hpassed
  · have hle : (1 : Double) ≤ ofNat (UInt32.size - 1) := by
      rwa [le_iff_toRat hone.finite hmost.finite, hone', hmost']
    refine iff_of_false ?_ (not_not.2 (Binary.le_trans hle (Binary.le_of_lt hpassed)))
    rwa [toWord_eq_zero_iff hmost.finite (not_neg_ofNat _), hmost', not_lt]
  · have hle := (not_lt_iff_le hmostNumber hnan).1 hpassed
    have hy : y.isFinite :=
      Between.isFinite (Or.inl ⟨hnonneg, hle⟩) (ofNat_double (Nat.zero_le _)).1.finite hmost.finite
    rw [toWord_eq_zero_iff hy hneg, le_iff_toRat hone.finite hy, hone', not_le]

/-- What is rounded to at least one. -/
theorem one_le_round_iff {q : ℚ} (z : Bool) : 1 ≤ (round z q : Double) ↔ 1 - 1 / 2 ^ 54 ≤ q := by
  have hone : (1 : Double).ordinal % 2 = 0 ∧
      Format.double.threshold ((1 : Double).ordinal - 1) = 1 - 1 / 2 ^ 54 := by decide +kernel
  rw [le_round_iff double_one.1.finite, ClearlyBelow, hone.2]
  simp [hone.1]

end Word

section Range

variable {q : ℚ} {i j : Int}

/-- Rounding stays between powers of two. -/
theorem round_mem_zpow (hi : -1074 ≤ i) (hj : j < 1024) (hlow : 2 ^ i ≤ q) (hhigh : q ≤ 2 ^ j)
    (z : Bool) :
    (round z q : Double).IsMagnitude ∧ 2 ^ i ≤ (round z q : Double).toRat ∧
      (round z q : Double).toRat ≤ 2 ^ j := by
  have hij : i ≤ j := (zpow_le_zpow_iff_right₀ (by norm_num)).1 (hlow.trans hhigh)
  have hleast : Format.double.leastExponent = -1074 := by decide
  have hkept : ∀ k : Int, i ≤ k → Format.double.rounded (2 ^ k) = 2 ^ k := by
    intro k hk
    have hscaled := Format.rounded_scaled (F := Format.double) (n := 1) (by decide)
      (hleast.trans_le (hi.trans hk))
    rwa [Nat.cast_one, one_mul] at hscaled
  have hoverflow : (2 : ℚ) ^ j < Format.double.overflow := by
    have hlast : ((2 : ℚ) ^ (1024 : Int)) = 2 ^ 1024 := zpow_natCast 2 1024
    rw [Format.overflow_double, ← hlast]
    exact zpow_lt_zpow_right₀ (by norm_num) hj
  have hnonneg : 0 ≤ q := (by positivity : (0 : ℚ) ≤ 2 ^ i).trans hlow
  have hle := Format.rounded_le (hkept j hij) hnonneg hhigh
  obtain ⟨hmagnitude, hvalue⟩ := round_spec hnonneg (hle.trans_lt hoverflow) z
  rw [hvalue]
  exact ⟨hmagnitude, Format.le_rounded (hkept i le_rfl) hlow, hle⟩

end Range

section Quotient

variable {s p : Double}

/-- The limits that the operands of one operation after the other pass. -/
theorem limits_even :
    (ofNat 100000000 : Double).EvenWithGap (1 / 2 ^ 26) ∧
      (ofNat 200000000 : Double).EvenWithGap (1 / 2 ^ 25) ∧
      (ofNat 600000000 : Double).EvenWithGap (1 / 2 ^ 23) := by
  decide +kernel

theorem hundredMillion :
    (ofNat 100000000 : Double).EvenWithGap (1 / 2 ^ 26) ∧
      (ofNat 100000000 : Double).toRat = 100000000 :=
  ⟨limits_even.1, by exact_mod_cast (ofNat_double (n := 100000000) (by norm_num)).2⟩

theorem twoHundredMillion :
    (ofNat 200000000 : Double).EvenWithGap (1 / 2 ^ 25) ∧
      (ofNat 200000000 : Double).toRat = 200000000 :=
  ⟨limits_even.2.1, by exact_mod_cast (ofNat_double (n := 200000000) (by norm_num)).2⟩

theorem sixHundredMillion :
    (ofNat 600000000 : Double).EvenWithGap (1 / 2 ^ 23) ∧
      (ofNat 600000000 : Double).toRat = 600000000 :=
  ⟨limits_even.2.2, by exact_mod_cast (ofNat_double (n := 600000000) (by norm_num)).2⟩

theorem double_two : (2 : Double).isFinite ∧ (2 : Double).toRat = 2 := by
  have h := ofNat_double (n := 2) (by norm_num)
  exact ⟨h.1.finite, by exact_mod_cast h.2⟩

theorem double_six : (6 : Double).isFinite ∧ (6 : Double).toRat = 6 := by
  have h := ofNat_double (n := 6) (by norm_num)
  exact ⟨h.1.finite, by exact_mod_cast h.2⟩

variable {x : Double}

theorem lt_product_iff (hs : s.isFinite) (hp : p.isFinite) :
    ofNat 200000000 < s * p ↔ 200000000 + 1 / 2 ^ 26 < s.toRat * p.toRat := by
  obtain ⟨z, hz⟩ := mul_eq_round hs hp
  rw [hz, twoHundredMillion.1.lt_round_iff, twoHundredMillion.2]
  norm_num

theorem lt_half_iff (hx : x.isFinite) : ofNat 100000000 < x / 2 ↔ ofNat 200000000 < x := by
  obtain ⟨z, hz⟩ := div_eq_round hx double_two.1 (by rw [double_two.2]; norm_num)
  rw [hz, double_two.2, div_eq_mul_one_div]
  apply twoHundredMillion.1.lt_round_mul_iff hundredMillion.1 hx
  · norm_num
  · rw [hundredMillion.2, twoHundredMillion.2]
    norm_num
  · norm_num
  · norm_num

theorem lt_mul_six_iff (hx : x.isFinite) : ofNat 600000000 < x * 6 ↔ ofNat 100000000 < x := by
  obtain ⟨z, hz⟩ := mul_eq_round hx double_six.1
  rw [hz, double_six.2]
  apply hundredMillion.1.lt_round_mul_iff sixHundredMillion.1 hx
  · norm_num
  · rw [hundredMillion.2, sixHundredMillion.2]
    norm_num
  · norm_num
  · norm_num

/-- The ticks of a minute are multiplied exactly. -/
theorem minute_spec :
    (ofNat Clock.ticksPerSecond * 60 : Double).isFinite ∧
      (ofNat Clock.ticksPerSecond * 60 : Double).toRat = 600000000 := by
  decide +kernel

/-- A divisor past six hundred million leaves less than one of a minute's ticks. -/
theorem minute_div_spec (hx : x.isFinite) (hpos : 0 < x.toRat) :
    (ofNat Clock.ticksPerSecond * 60 / x).isNaN = false ∧
      ¬ ofNat Clock.ticksPerSecond * 60 / x < 0 ∧
      (¬ 1 ≤ ofNat Clock.ticksPerSecond * 60 / x ↔ ofNat 600000000 < x) := by
  obtain ⟨hminute, hminute'⟩ := minute_spec
  obtain ⟨z, hz⟩ := div_eq_round hminute hx hpos.ne'
  have hpassed := sixHundredMillion.1.lt_mul_iff hx
    (show (0 : ℚ) < 1 - 1 / 2 ^ 54 by norm_num) (b := 600000000)
    (by rw [sixHundredMillion.2]; norm_num) (by rw [sixHundredMillion.2]; norm_num)
  rw [hz, hminute', one_le_round_iff, le_div_iff₀ hpos, not_le, mul_comm, hpassed]
  exact ⟨isNaN_round _ _, not_neg_round (div_nonneg (by norm_num) hpos.le) z, Iff.rfl⟩

/-- No operation before the last one leaves the range of the format. -/
theorem divisor_pos (hs : s.isFinite) (hslow : 2 ^ (-149 : Int) ≤ s.toRat)
    (hshigh : s.toRat ≤ 2 ^ (128 : Int)) (hp : p.isFinite) (hplow : 1 ≤ p.toRat)
    (hphigh : p.toRat ≤ 2 ^ (32 : Int)) :
    (s * p).isFinite ∧ (s * p / 2).isFinite ∧ (s * p / 2 * 6).isFinite ∧
      0 < (s * p / 2 * 6).toRat := by
  have hspos : (0 : ℚ) < 2 ^ (-149 : Int) := by positivity
  have hproduct : s.toRat * p.toRat ≤ 2 ^ (160 : Int) := by
    have hmul := mul_le_mul hshigh hphigh (by linarith) (by positivity)
    rwa [← zpow_add₀ (by norm_num)] at hmul
  have hhalf : (2 : ℚ) ^ (-149 : Int) / 2 = 2 ^ (-150 : Int) := by norm_num
  have htop : (2 : ℚ) ^ (160 : Int) * 8 = 2 ^ (163 : Int) := by norm_num
  obtain ⟨w, hw⟩ := mul_eq_round hs hp
  obtain ⟨hx, hxlow, hxhigh⟩ := round_mem_zpow (by norm_num) (by norm_num)
    (hslow.trans (le_mul_of_one_le_right (hspos.le.trans hslow) hplow)) hproduct w
  rw [← hw] at hx hxlow hxhigh
  obtain ⟨v, hv⟩ := div_eq_round hx.finite double_two.1 (by rw [double_two.2]; norm_num)
  rw [double_two.2] at hv
  have hhalved : 2 ^ (-150 : Int) ≤ (s * p).toRat / 2 ∧ (s * p).toRat / 2 ≤ 2 ^ (160 : Int) := by
    rw [← hhalf]
    exact ⟨div_le_div_of_nonneg_right hxlow (by norm_num),
      (div_le_self hx.nonneg (by norm_num)).trans hxhigh⟩
  obtain ⟨hh, hhlow, hhhigh⟩ := round_mem_zpow (by norm_num) (by norm_num) hhalved.1 hhalved.2 v
  rw [← hv] at hh hhlow hhhigh
  obtain ⟨u, hu⟩ := mul_eq_round hh.finite double_six.1
  rw [double_six.2] at hu
  have hleast : (0 : ℚ) < 2 ^ (-150 : Int) := by positivity
  have hmultiple : 2 ^ (-150 : Int) ≤ (s * p / 2).toRat * 6 ∧
      (s * p / 2).toRat * 6 ≤ 2 ^ (163 : Int) := by
    rw [← htop]
    exact ⟨hhlow.trans (le_mul_of_one_le_right hh.nonneg (by norm_num)),
      mul_le_mul hhhigh (by norm_num) (by norm_num) (by positivity)⟩
  obtain ⟨hd, hdlow, -⟩ := round_mem_zpow (by norm_num) (by norm_num) hmultiple.1 hmultiple.2 u
  rw [← hu] at hd hdlow
  exact ⟨hx.finite, hh.finite, hd.finite, hleast.trans_le hdlow⟩

theorem ofNat_poles (poles : UInt32) :
    (ofNat poles.toNat : Double).IsMagnitude ∧
      (ofNat poles.toNat : Double).toRat = poles.toNat := by
  have hword : poles.toNat < 2 ^ 32 := poles.toNat_lt
  exact ofNat_double (by omega)

/-- There is a least positive number. -/
theorem least_le_toRat {x : Single} (hx : x.isFinite) (hpos : 0 < x.toRat) :
    2 ^ (-149 : Int) ≤ x.toRat := by
  have hexponent : Format.single.leastExponent = -149 := by decide
  have hleast : Format.single.value 1 = 2 ^ (-149 : Int) := by
    rw [← hexponent, ← Nat.cast_one, Format.value_natCast, Format.magnitude_of_le (by decide),
      Nat.cast_one, one_mul]
  rw [toRat_eq_value hx] at hpos ⊢
  rw [← Format.single.value_zero, Format.single.value_strictMono.lt_iff_lt] at hpos
  rw [← hleast]
  exact Format.single.value_strictMono.monotone hpos

end Quotient

end Binary

namespace Rotor

open Binary

variable {r : Rotor}

/-- The period of a turning rotor by the exact product of speed and pole count. -/
theorem period_eq_zero_iff (hpoles : r.config.poles ≠ 0) (hspeed : r.speed.isFinite) :
    r.period = 0 ↔
      r.speed ≤ 0 ∨ 200000000 + 1 / 2 ^ 26 < r.speed.toRat * r.config.poles.toNat := by
  rw [period]
  split_ifs with hrest
  · exact iff_of_true rfl (Or.inl hrest)
  · rw [or_iff_right hrest]
    have hpos : 0 < r.speed.toRat := by
      rwa [le_iff_toRat hspeed zero_mem.1, zero_mem.2, not_le] at hrest
    obtain ⟨hs, hs'⟩ := toDouble_spec ⟨hspeed, hpos.le⟩
    obtain ⟨hp, hp'⟩ := ofNat_poles r.config.poles
    have hpole : (1 : ℚ) ≤ r.config.poles.toNat := by
      exact_mod_cast UInt32.pos_iff_ne_zero.2 hpoles
    have hlast : (r.config.poles.toNat : ℚ) ≤ 2 ^ (32 : Int) := by
      exact_mod_cast r.config.poles.toNat_lt.le
    have hmost : r.speed.toRat ≤ 2 ^ (128 : Int) := by
      have hlt := IsMagnitude.lt_overflow ⟨hspeed, hpos.le⟩
      rw [Format.overflow_single] at hlt
      exact_mod_cast hlt.le
    obtain ⟨hx, hh, hd, hdpos⟩ := divisor_pos hs.finite
      (by rw [hs']; exact least_le_toRat hspeed hpos) (by rwa [hs'])
      hp.finite (by rw [hp']; exact hpole) (by rw [hp']; exact hlast)
    obtain ⟨hnan, hneg, hone⟩ := minute_div_spec hd hdpos
    rw [toWord_min_eq_zero_iff hnan hneg, hone, lt_mul_six_iff hh, lt_half_iff hx,
      lt_product_iff hs.finite hp.finite, hs', hp']

/-- A period of zero means rest as long as the product is small. -/
theorem marks_rest_iff (hpoles : r.config.poles ≠ 0) (hspeed : r.speed.isFinite) :
    (r.period = 0 ↔ r.speed ≤ 0) ↔
      r.speed.toRat * r.config.poles.toNat ≤ 200000000 + 1 / 2 ^ 26 := by
  rw [period_eq_zero_iff hpoles hspeed]
  by_cases hrest : r.speed ≤ 0
  · have hnonpos : r.speed.toRat ≤ 0 := by
      rwa [le_iff_toRat hspeed zero_mem.1, zero_mem.2] at hrest
    have hproduct :=
      mul_nonpos_of_nonpos_of_nonneg hnonpos (Nat.cast_nonneg r.config.poles.toNat)
    exact iff_of_true (by simp [hrest]) (hproduct.trans (by norm_num))
  · simp only [hrest, false_or, iff_false, not_lt]

/-- After any calls, a period of zero means rest exactly as long as the product of
speed and pole count is not rounded past two hundred million. -/
theorem period_marks_rest_iff {c : SimulationConfig} (hvalid : c.Valid) (calls : List RotorCall)
    (hspeed : ((atRest c).after calls).speed.isFinite) :
    let r := (atRest c).after calls
    (r.period = 0 ↔ r.speed ≤ 0) ↔
      r.speed.toRat * c.poles.toNat ≤ 200000000 + 1 / 2 ^ 26 := by
  intro r
  obtain ⟨-, -, ⟨hpoles, -⟩, -⟩ := SimulationConfig.valid_iff.1 hvalid
  have hconfig : r.config = c := config_after _ _
  rw [← hconfig]
  exact marks_rest_iff (by rwa [hconfig]) hspeed

/-- A spin-up at full duty. -/
def fullSpinup : List RotorCall :=
  [.command (.start 1 1 false), .advance (.ofMillis 200)]

theorem period_marks_rest_at_full_duty :
    SimulationConfig.standard.Valid ∧ ((atRest .standard).after fullSpinup).speed.isFinite ∧
      (((atRest .standard).after fullSpinup).period = 0 ↔
        ((atRest .standard).after fullSpinup).speed ≤ 0) := by
  have hvalid := SimulationConfig.standard_spec.1
  have hspeed : ((atRest .standard).after fullSpinup).speed.isFinite ∧
      ((atRest .standard).after fullSpinup).speed.toRat *
        SimulationConfig.standard.poles.toNat ≤ 200000000 + 1 / 2 ^ 26 := by
    decide +kernel
  exact ⟨hvalid, hspeed.1, (period_marks_rest_iff hvalid fullSpinup hspeed.1).2 hspeed.2⟩

/-- A motor of fifteen million revolutions per minute. -/
def fastMotor : SimulationConfig :=
  { SimulationConfig.standard with kv := 1250000 }

/-- The fast motor turns, with a period of zero. -/
theorem turning_without_period :
    let r := (atRest fastMotor).after fullSpinup
    fastMotor.Valid ∧ fastMotor.busVoltage.isFinite ∧ fastMotor.sourceResistance.isFinite ∧
      fastMotor.kv.isFinite ∧ fastMotor.stallRpm.isFinite ∧ fastMotor.fullLoadCurrent.isFinite ∧
      r.state = .running ∧ r.speed = 15000000 ∧ r.period = 0 ∧
      ¬ (r.period = 0 ↔ r.speed ≤ 0) := by
  decide +kernel

end Rotor
end MotorSupervisor
