import MotorSupervisor.Proofs.Binary.Rounded

/-!
# Rounding of integers

Integers that fit the significand are magnitudes, and larger ones are rounded
to integers.  So rounding an integer a second time, after one more has been
added, does not lead further up than rounding the next integer.

**Results.**
* `rounded_scaled`: what fits the significand is a magnitude.
* `exists_natCast_eq_rounded`: integers are rounded to integers.
* `rounded_rounded_add_one_le`: the rounded successor.
* `ofNat_spec`, `ofNat_double`, `toDouble_spec`: integers as numbers, and numbers
  in the wider format.
-/

namespace MotorSupervisor

namespace Format

variable {F : Format} {n : Nat}

/-- What fits the significand is a magnitude. -/
theorem rounded_scaled (hn : n ≤ 2 * F.binade) {e : Int} (he : F.leastExponent ≤ e) :
    F.rounded (n * 2 ^ e) = n * 2 ^ e := by
  obtain ⟨k, rfl⟩ := Int.le.dest he
  have hscaled := rounded_two_pow_mul (F.rounded_magnitude n) k
  have hvalue : (2 : ℚ) ^ k * F.magnitude n = n * 2 ^ (F.leastExponent + k) := by
    rw [magnitude_of_le hn, zpow_add₀ (by norm_num), zpow_natCast]
    ring
  rwa [hvalue] at hscaled

theorem rounded_natCast (he : F.leastExponent ≤ 0) (hn : n ≤ 2 * F.binade) :
    F.rounded n = n := by
  have h := rounded_scaled hn he
  rwa [zpow_zero, mul_one] at h

/-- An integer is rounded to an integer. -/
theorem exists_natCast_eq_rounded (he : F.leastExponent ≤ 0) (n : Nat) :
    ∃ m : Nat, F.rounded n = m := by
  rcases le_or_gt n (2 * F.binade) with hn | hn
  · exact ⟨n, rounded_natCast he hn⟩
  · have hlow : ((2 * F.binade : Nat) : ℚ) ≤ F.rounded n :=
      le_rounded (rounded_natCast he le_rfl) (by exact_mod_cast hn.le)
    have hsignificand : (F.significand (F.nearestRank n) : ℚ) < (2 * F.binade : Nat) := by
      exact_mod_cast F.significand_lt _
    -- so far up neighbours are more than one apart
    have hgap : 1 < F.gap (F.nearestRank n) := by
      by_contra hle
      rw [rounded, magnitude_eq] at hlow
      have hproduct := mul_le_mul_of_nonneg_left (not_lt.1 hle)
        (Nat.cast_nonneg (α := ℚ) (F.significand (F.nearestRank n)))
      linarith
    have hexponent : 0 < F.leastExponent + F.shift (F.nearestRank n) :=
      (one_lt_zpow_iff_right₀ (by norm_num)).1 hgap
    obtain ⟨k, hk⟩ := Int.eq_ofNat_of_zero_le hexponent.le
    refine ⟨F.significand (F.nearestRank n) * 2 ^ k, ?_⟩
    rw [rounded, magnitude_eq, gap, hk]
    push_cast
    rw [zpow_natCast]

theorem rounded_rounded_add_one_le (he : F.leastExponent ≤ 0) (n : Nat) :
    F.rounded (F.rounded n + 1) ≤ F.rounded (n + 1) := by
  have hn : (0 : ℚ) ≤ n := Nat.cast_nonneg n
  obtain ⟨m, hm⟩ := exists_natCast_eq_rounded he n
  rcases le_or_gt m n with hdown | hup
  · have hle : (m : ℚ) ≤ n := by exact_mod_cast hdown
    rw [hm]
    exact rounded_mono (by positivity) (by linarith)
  · have hnext : (n : ℚ) + 1 ≤ F.rounded n := by
      rw [hm]
      exact_mod_cast hup
    calc F.rounded (F.rounded n + 1)
        ≤ F.rounded (2 * F.rounded n - n) :=
          rounded_mono (add_nonneg (F.rounded_nonneg _) zero_le_one) (by linarith)
      _ ≤ F.rounded n := rounded_reflect_le hn (by linarith)
      _ ≤ F.rounded (n + 1) := rounded_mono hn (by linarith)

theorem overflow_double : double.overflow = 2 ^ 1024 := by
  decide +kernel

end Format

namespace Binary

variable {F : Format}

theorem ofNat_spec {n : Nat} (h : F.rounded n < F.overflow) :
    (ofNat n : Binary F).IsMagnitude ∧ (ofNat n : Binary F).toRat = F.rounded n :=
  round_spec (Nat.cast_nonneg n) h false

/-- Integers of up to 53 bits are numbers of the 64-bit format. -/
theorem ofNat_double {n : Nat} (hn : n ≤ 2 ^ 53) :
    (ofNat n : Double).IsMagnitude ∧ (ofNat n : Double).toRat = n := by
  have hbinade : 2 * Format.double.binade = 2 ^ 53 := by decide
  have hkept : Format.double.rounded n = n :=
    Format.rounded_natCast (by decide) (hn.trans_eq hbinade.symm)
  have hfits : (n : ℚ) < Format.double.overflow := by
    have hn' : (n : ℚ) ≤ 2 ^ 53 := by exact_mod_cast hn
    rw [Format.overflow_double]
    exact hn'.trans_lt (pow_lt_pow_right₀ (by norm_num) (by norm_num))
  have hspec := ofNat_spec (hkept.trans_lt hfits)
  rwa [hkept] at hspec

theorem IsMagnitude.lt_overflow {x : Binary F} (h : x.IsMagnitude) : x.toRat < F.overflow := by
  have hfinite := (isFinite_iff (isNaN_of_isFinite h.finite)).1 h.finite
  rw [Format.overflow, ← F.value_natCast, toRat_eq_value h.finite]
  exact F.value_strictMono (by omega)

/-- The wider format keeps what the narrower one can represent. -/
theorem toDouble_spec {x : Single} (h : x.IsMagnitude) :
    (x.toFormat Format.double).IsMagnitude ∧ (x.toFormat Format.double).toRat = x.toRat := by
  have hnarrow := Format.single.significand_lt (Format.single.nearestRank x.toRat)
  have hwidths : Format.single.binade ≤ Format.double.binade := by decide
  have hexponents : Format.double.leastExponent ≤ Format.single.leastExponent := by decide
  have hkept : Format.double.rounded x.toRat = x.toRat := by
    have hvalue := h.rounded.symm.trans (Format.single.magnitude_eq _)
    rw [hvalue, Format.gap]
    apply Format.rounded_scaled
    · omega
    · omega
  have hlarge : Format.single.overflow < Format.double.overflow := by
    rw [Format.overflow_single, Format.overflow_double]
    exact pow_lt_pow_right₀ (by norm_num) (by norm_num)
  obtain ⟨z, hz⟩ := toFormat_eq_round (G := Format.double) h.finite
  obtain ⟨hmagnitude, hvalue⟩ := round_spec h.nonneg
    (hkept.trans_lt (h.lt_overflow.trans hlarge)) z
  rw [hz]
  exact ⟨hmagnitude, hvalue.trans hkept⟩

end Binary
end MotorSupervisor
