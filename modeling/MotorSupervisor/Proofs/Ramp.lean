import MotorSupervisor.Control.Cycle
import MotorSupervisor.Proofs.Binary.Unit

/-!
# The speed cap

The cap is a quotient of two rounded differences of rounded integers.  Below
the period limit it is nevertheless always a finite number, and its sign is
exact: rounding keeps half of the limit apart from the limit, two different
numbers of which one is at least `1` are at least `2 ^ (-25)` apart, and so
neither difference is lost.

**Results.**
* `ofNat_lt_of_two_mul_le`: doubling an integer shows after rounding.
* `le_sub_of_lt`: differences are not lost.
* `sub_mem_of_exact`, `div_mem_of_exact`: bounds survive the rounding.
* `div_of_nonneg`, `div_of_neg`: quotients keep their sign.
* `rampWidth_bounds`: the divisor of the cap.
* `ramp_spec`, `rampNegative_iff`: the cap below the limit.
-/

namespace MotorSupervisor
namespace Binary

/-- A rational that is a number of the 32-bit format. -/
def Exact (q : ℚ) : Prop :=
  (ofRat q : Single).isFinite ∧ (ofRat q : Single).toRat = q

instance (q : ℚ) : Decidable (Exact q) :=
  inferInstanceAs (Decidable (_ ∧ _))

theorem exact_zero : Exact 0 := by
  decide +kernel

theorem exact_one : Exact 1 := by
  decide +kernel

theorem exact_two_pow : Exact (2 ^ 32) := by
  decide +kernel

theorem exact_neg_two_pow : Exact (-2 ^ 32) := by
  decide +kernel

/-- Rounding stays within exact bounds. -/
theorem round_mem_of_exact {low high q : ℚ} (hlow : Exact low) (hhigh : Exact high)
    (h₁ : low ≤ q) (h₂ : q ≤ high) (z : Bool) :
    (round z q : Single).isFinite ∧ low ≤ (round z q : Single).toRat ∧
      (round z q : Single).toRat ≤ high := by
  have h := round_mem hlow.1 hhigh.1 (hlow.2.trans_le h₁) (h₂.trans_eq hhigh.2.symm) z
  rwa [hlow.2, hhigh.2] at h

section Integers

variable {m n : Nat}

theorem ofNat_bounds (hn : n < 2 ^ 32) :
    (ofNat n : Single).isFinite ∧ 0 ≤ (ofNat n : Single).toRat ∧
      (ofNat n : Single).toRat ≤ 2 ^ 32 := by
  refine round_mem_of_exact exact_zero exact_two_pow ?_ ?_ false
  · positivity
  · exact_mod_cast hn.le

theorem one_le_ofNat (h : 1 ≤ n) (hn : n < 2 ^ 32) : 1 ≤ (ofNat n : Single).toRat := by
  have hbound : (n : ℚ) ≤ 2 ^ 32 := by exact_mod_cast hn.le
  have hone : (1 : ℚ) ≤ n := by exact_mod_cast h
  exact (round_mem_of_exact exact_one exact_two_pow hone hbound false).2.1

theorem ofNat_le_ofNat (h : m ≤ n) (hn : n < 2 ^ 32) :
    (ofNat m : Single).toRat ≤ (ofNat n : Single).toRat := by
  have hm : m < 2 ^ 32 := h.trans_lt hn
  rw [toRat_eq_value (ofNat_bounds hm).1, toRat_eq_value (ofNat_bounds hn).1]
  apply Format.single.value_strictMono.monotone
  rw [ofNat, ofNat, ofRat, ofRat, ordinal_round, ordinal_round]
  exact Format.single.nearest_mono (by exact_mod_cast h)

/-- Doubling a positive integer shows after rounding. -/
theorem ofNat_lt_of_two_mul_le (hm : 1 ≤ m) (h : 2 * m ≤ n) (hn : n < 2 ^ 32) :
    (ofNat m : Single).toRat < (ofNat n : Single).toRat := by
  have hm' : m < 2 ^ 32 := by omega
  have hrank : Format.single.nearestRank m < Format.single.nearestRank n := by
    apply Format.single.nearestRank_lt_of_two_mul_le (by decide)
    · have hone : Format.single.magnitude (Format.single.binade + 1) ≤ 1 := by decide +kernel
      exact hone.trans (by exact_mod_cast hm)
    · exact_mod_cast h
  have hfin := (isFinite_iff (isNaN_round false (n : ℚ))).1 (ofNat_bounds hn).1
  rw [toRat_eq_value (ofNat_bounds hm').1, toRat_eq_value (ofNat_bounds hn).1]
  apply Format.single.value_strictMono
  rw [ordinal_round, Format.nearest_of_nonneg _ (Nat.cast_nonneg n)] at hfin
  rw [ofNat, ofNat, ofRat, ofRat, ordinal_round, ordinal_round,
    Format.nearest_of_nonneg _ (Nat.cast_nonneg m),
    Format.nearest_of_nonneg _ (Nat.cast_nonneg n)]
  omega

end Integers

/-- Different numbers do not come arbitrarily close above one. -/
theorem le_sub_of_lt {x y : Single} (hx : x.isFinite) (hy : y.isFinite) (hpos : 0 ≤ x.toRat)
    (h : x.toRat < y.toRat) (hone : 1 ≤ y.toRat) : 1 / 2 ^ 25 ≤ y.toRat - x.toRat := by
  have hsep := toRat_separated hx hy hpos h
  rw [two_mul_binade_single] at hsep
  rcases le_or_gt x.toRat (1 / 2) with hhalf | hhalf
  · norm_num
    linarith
  · norm_num at hsep ⊢
    linarith

section Bounds

variable {x y : Single} {low high : ℚ} (hx : x.isFinite) (hy : y.isFinite)
  (hlow : Exact low) (hhigh : Exact high)
include hx hy hlow hhigh

/-- A rounded difference stays within exact bounds. -/
theorem sub_mem_of_exact (h₁ : low ≤ x.toRat - y.toRat) (h₂ : x.toRat - y.toRat ≤ high) :
    (x - y).isFinite ∧ low ≤ (x - y).toRat ∧ (x - y).toRat ≤ high := by
  obtain ⟨z, hz⟩ := sub_eq_round hx hy
  rw [hz]
  exact round_mem_of_exact hlow hhigh h₁ h₂ z

/-- A rounded quotient stays within exact bounds. -/
theorem div_mem_of_exact (hpos : 0 < y.toRat) (h₁ : low * y.toRat ≤ x.toRat)
    (h₂ : x.toRat ≤ high * y.toRat) :
    (x / y).isFinite ∧ low ≤ (x / y).toRat ∧ (x / y).toRat ≤ high := by
  obtain ⟨z, hz⟩ := div_eq_round hx hy hpos.ne'
  rw [hz]
  exact round_mem_of_exact hlow hhigh ((le_div_iff₀ hpos).2 h₁) ((div_le_iff₀ hpos).2 h₂) z

end Bounds

variable {n d : Single}

/-- A quotient of numbers that are neither negative nor extreme. -/
theorem div_of_nonneg (hn : n.isFinite) (hd : d.isFinite) (hnonneg : 0 ≤ n.toRat)
    (hmax : n.toRat ≤ 2 ^ 32) (hlow : 1 / 2 ^ 25 ≤ d.toRat) :
    (n / d).isFinite ∧ ¬ n / d < 0 := by
  have hpos : 0 < d.toRat := lt_of_lt_of_le (by norm_num) hlow
  have hmost : n.toRat ≤ 2 ^ 57 * d.toRat := by linarith
  obtain ⟨hfin, hq, -⟩ := div_mem_of_exact hn hd exact_zero (by decide +kernel) hpos
    (by rwa [zero_mul]) hmost
  rw [lt_iff_toRat hfin zero_mem.1, zero_mem.2]
  exact ⟨hfin, not_lt.2 hq⟩

/-- A quotient keeps the sign of a negative number that is not extreme. -/
theorem div_of_neg (hn : n.isFinite) (hd : d.isFinite) (hmin : -2 ^ 32 ≤ n.toRat)
    (hneg : n.toRat ≤ -(1 / 2 ^ 25)) (hlow : 1 / 2 ^ 25 ≤ d.toRat) (hmax : d.toRat ≤ 2 ^ 32) :
    (n / d).isFinite ∧ n / d < 0 := by
  have hpos : 0 < d.toRat := lt_of_lt_of_le (by norm_num) hlow
  have hleast : -2 ^ 57 * d.toRat ≤ n.toRat := by linarith
  have hmost : n.toRat ≤ -(1 / 2 ^ 57) * d.toRat := by linarith
  obtain ⟨hfin, -, hq⟩ := div_mem_of_exact hn hd (by decide +kernel) (by decide +kernel)
    hpos hleast hmost
  rw [lt_iff_toRat hfin zero_mem.1, zero_mem.2]
  exact ⟨hfin, lt_of_le_of_lt hq (by norm_num)⟩

end Binary

namespace ControlState

open Binary

variable {limit period : UInt32}

/-- Half of the limit, as the cap sees it, lies below the limit. -/
theorem half_lt_limit (h : 0 < limit.toNat) :
    (ofNat (limit / 2).toNat : Single).toRat < (ofNat limit.toNat : Single).toRat := by
  have hlimit : limit.toNat < 2 ^ 32 := limit.toNat_lt
  have hhalf : (limit / 2).toNat = limit.toNat / 2 := by simp [UInt32.toNat_div]
  rw [hhalf]
  rcases Nat.eq_zero_or_pos (limit.toNat / 2) with hzero | hpos
  · have hone := one_le_ofNat h hlimit
    rw [hzero]
    exact zero_mem.2.trans_lt (by linarith)
  · exact ofNat_lt_of_two_mul_le hpos (by omega) hlimit

/-- The divisor of the cap is neither zero nor extreme. -/
theorem rampWidth_bounds (h : 0 < limit.toNat) :
    (rampWidth limit).isFinite ∧ 1 / 2 ^ 25 ≤ (rampWidth limit).toRat ∧
      (rampWidth limit).toRat ≤ 2 ^ 32 := by
  obtain ⟨hhfin, hhnonneg, -⟩ := ofNat_bounds (limit / 2).toNat_lt
  obtain ⟨hlfin, -, hlmax⟩ := ofNat_bounds limit.toNat_lt
  have hgap := le_sub_of_lt hhfin hlfin hhnonneg (half_lt_limit h)
    (one_le_ofNat (by omega) limit.toNat_lt)
  exact sub_mem_of_exact hlfin hhfin (show Exact (1 / 2 ^ 25) by decide +kernel)
    exact_two_pow hgap (by linarith)

/-- Below the limit the cap is a number, and it is negative exactly when the
period lies below half of the limit. -/
theorem ramp_spec (h : period < limit) :
    (ramp limit period).isFinite ∧
      (ramp limit period < 0 ↔
        (ofNat period.toNat : Single) < ofNat (limit / 2).toNat) := by
  have hlimit : limit.toNat < 2 ^ 32 := limit.toNat_lt
  have hlt : period.toNat < limit.toNat := UInt32.lt_iff_toNat_lt.1 h
  have hhalf : (limit / 2).toNat ≤ limit.toNat := by
    rw [UInt32.toNat_div]
    exact Nat.div_le_self _ _
  obtain ⟨hpfin, hpnonneg, hpmax⟩ := ofNat_bounds (hlt.trans hlimit)
  obtain ⟨hhfin, hhnonneg, hhmax⟩ := ofNat_bounds (hhalf.trans_lt hlimit)
  obtain ⟨hdfin, hdlow, hdhigh⟩ := rampWidth_bounds (show 0 < limit.toNat by omega)
  rw [ramp, lt_iff_toRat hpfin hhfin]
  rcases le_or_gt (ofNat (limit / 2).toNat : Single).toRat (ofNat period.toNat : Single).toRat
    with hge | hbelow
  · obtain ⟨hnfin, hnlow, hnhigh⟩ := sub_mem_of_exact hpfin hhfin exact_zero exact_two_pow
      (by linarith) (by linarith)
    obtain ⟨hfin, hsign⟩ := div_of_nonneg hnfin hdfin hnlow hnhigh hdlow
    exact ⟨hfin, iff_of_false hsign (not_lt.2 hge)⟩
  · -- half of the limit is not zero, since something lies below it
    have hone : 1 ≤ (ofNat (limit / 2).toNat : Single).toRat := by
      apply one_le_ofNat _ (hhalf.trans_lt hlimit)
      by_contra hnone
      rw [Nat.lt_one_iff.1 (not_le.1 hnone)] at hbelow
      exact absurd (hpnonneg.trans_lt hbelow) (not_lt.2 zero_mem.2.le)
    have hgap' := le_sub_of_lt hpfin hhfin hpnonneg hbelow hone
    obtain ⟨hnfin, hnlow, hnhigh⟩ := sub_mem_of_exact hpfin hhfin exact_neg_two_pow
      (show Exact (-(1 / 2 ^ 25)) by decide +kernel) (by linarith) (by linarith)
    obtain ⟨hfin, hsign⟩ := div_of_neg hnfin hdfin hnlow hnhigh hdlow hdhigh
    exact ⟨hfin, iff_of_true hsign hbelow⟩

/-- The period is short enough to make the cap negative: it lies below half of
the limit, as far as rounded integers tell. -/
def RampNegative (limit period : UInt32) : Prop :=
  0 < period ∧ (ofNat period.toNat : Single) < ofNat (limit / 2).toNat

instance : Decidable (RampNegative limit period) :=
  inferInstanceAs (Decidable (_ ∧ _))

theorem RampNegative.lt_limit (h : RampNegative limit period) : period < limit := by
  obtain ⟨-, hlt⟩ := h
  have hlimit : limit.toNat < 2 ^ 32 := limit.toNat_lt
  have hperiod : period.toNat < 2 ^ 32 := period.toNat_lt
  have hhalf : (limit / 2).toNat = limit.toNat / 2 := by simp [UInt32.toNat_div]
  rw [UInt32.lt_iff_toNat_lt]
  by_contra hge
  have hle := ofNat_le_ofNat (show (limit / 2).toNat ≤ period.toNat by omega) hperiod
  rw [lt_iff_toRat (ofNat_bounds hperiod).1 (ofNat_bounds (by omega)).1] at hlt
  exact absurd hlt (not_lt.2 hle)

theorem rampNegative_iff :
    RampNegative limit period ↔ period ≠ 0 ∧ period < limit ∧ ramp limit period < 0 := by
  constructor
  · intro h
    exact ⟨UInt32.pos_iff_ne_zero.1 h.1, h.lt_limit, (ramp_spec h.lt_limit).2.2 h.2⟩
  · rintro ⟨hzero, hlimit, hneg⟩
    exact ⟨UInt32.pos_iff_ne_zero.2 hzero, (ramp_spec hlimit).2.1 hneg⟩

end ControlState
end MotorSupervisor
