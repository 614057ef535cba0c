import MotorSupervisor.LowPass
import MotorSupervisor.Proofs.Binary.Rounded
import MotorSupervisor.Proofs.Binary.Unit

/-!
# The low-pass filter after rounding

The filter takes a weighted average of the previous value and a sample, and
every operation on the way is rounded.  A power of two that bounds both values
nevertheless bounds the average, since rounding a sum commutes with powers of
two.  What can go wrong is the size of the products alone: while the product of
the time constant and the filtered value does not overflow, neither does
anything else, and the next such product is no larger than this one once the
time constant is so large that it swallows the elapsed time.

**Definitions.**
* `Format.weightedSum`, `Format.average`: the filter on rationals.

**Results.**
* `average_mem`: powers of two that bound the values bound the average.
* `mul_average_lt_overflow`: one step of the filter does not bring the product
  closer to an overflow.
* `lowPass_spec`: the filter computes the average.
* `isFinite_of_lowPass`: and it is finite only if the product is.
-/

namespace MotorSupervisor

namespace Format

section Average

variable (F : Format)

/-- The samples, weighted by elapsed time and time constant. -/
def weightedSum (tau dt previous sample : ℚ) : ℚ :=
  F.rounded (F.rounded (dt * sample) + F.rounded (tau * previous))

/-- The weighted average. -/
def average (tau dt previous sample : ℚ) : ℚ :=
  F.rounded (F.weightedSum tau dt previous sample / F.rounded (dt + tau))

variable {F} {tau dt previous sample : ℚ} {k l : Nat} (heven : F.binade % 2 = 0)
  (htau : F.rounded tau = tau) (hdt : F.rounded dt = dt)
include htau hdt

include heven in
theorem le_weightedSum (hprevious : 2 ^ k ≤ previous) (hsample : 2 ^ k ≤ sample) :
    2 ^ k * F.rounded (dt + tau) ≤ F.weightedSum tau dt previous sample := by
  have htau' : 0 ≤ tau := nonneg_of_rounded htau
  have hdt' : 0 ≤ dt := nonneg_of_rounded hdt
  have hsampled : 2 ^ k * dt ≤ F.rounded (dt * sample) :=
    le_rounded (rounded_two_pow_mul hdt k) (by nlinarith)
  have hheld : 2 ^ k * tau ≤ F.rounded (tau * previous) :=
    le_rounded (rounded_two_pow_mul htau k) (by nlinarith)
  rw [← rounded_two_pow_mul_add heven hdt htau, weightedSum]
  exact rounded_mono (by positivity) (by linarith)

include heven in
theorem weightedSum_le (hprevious : 0 ≤ previous) (hsample : 0 ≤ sample)
    (hprevious' : previous ≤ 2 ^ l) (hsample' : sample ≤ 2 ^ l) :
    F.weightedSum tau dt previous sample ≤ 2 ^ l * F.rounded (dt + tau) := by
  have htau' : 0 ≤ tau := nonneg_of_rounded htau
  have hdt' : 0 ≤ dt := nonneg_of_rounded hdt
  have hsampled : F.rounded (dt * sample) ≤ 2 ^ l * dt :=
    rounded_le (rounded_two_pow_mul hdt l) (by positivity) (by nlinarith)
  have hheld : F.rounded (tau * previous) ≤ 2 ^ l * tau :=
    rounded_le (rounded_two_pow_mul htau l) (by positivity) (by nlinarith)
  rw [← rounded_two_pow_mul_add heven hdt htau, weightedSum]
  exact rounded_mono (add_nonneg (F.rounded_nonneg _) (F.rounded_nonneg _)) (by linarith)

include heven in
/-- Powers of two that bound both values bound the average. -/
theorem average_mem (hone : F.rounded 1 = 1) (hweight : 0 < F.rounded (dt + tau))
    (hprevious : 2 ^ k ≤ previous) (hsample : 2 ^ k ≤ sample)
    (hprevious' : previous ≤ 2 ^ l) (hsample' : sample ≤ 2 ^ l) :
    2 ^ k ≤ F.average tau dt previous sample ∧ F.average tau dt previous sample ≤ 2 ^ l := by
  have hnonneg : (0 : ℚ) ≤ 2 ^ k := by positivity
  have hlow := le_weightedSum heven htau hdt hprevious hsample
  have hhigh := weightedSum_le heven htau hdt (hnonneg.trans hprevious) (hnonneg.trans hsample)
    hprevious' hsample'
  constructor
  · exact le_rounded (rounded_two_pow hone k) ((le_div_iff₀ hweight).2 hlow)
  · exact rounded_le (rounded_two_pow hone l) (div_nonneg (F.rounded_nonneg _) hweight.le)
      ((div_le_iff₀ hweight).2 hhigh)

end Average

section Overflow

variable {tau dt previous sample : ℚ}

variable (htau : single.rounded tau = tau) (hdt : single.rounded dt = dt) (hlast : dt ≤ 2 ^ 41)
  (hprevious : 2 ^ 2 ≤ previous) (hsample : 2 ^ 2 ≤ sample)
  (hsample' : sample ≤ 2 ^ 6)
include htau hdt hlast hprevious hsample hsample'

/-- A large time constant swallows the elapsed time and the sample. -/
theorem swallows_of_le (hlarge : 2 ^ 100 ≤ tau) :
    single.rounded (dt + tau) = tau ∧
      single.weightedSum tau dt previous sample = single.rounded (tau * previous) := by
  have hbinade : (4 : ℚ) * single.binade = 2 ^ 25 := by
    linarith [Binary.two_mul_binade_single]
  have hdt' : 0 ≤ dt := nonneg_of_rounded hdt
  have hsampled : single.rounded (dt * sample) ≤ 2 ^ 6 * dt :=
    rounded_le (rounded_two_pow_mul hdt 6) (by nlinarith) (by nlinarith)
  have hheld : 2 ^ 2 * tau ≤ single.rounded (tau * previous) :=
    le_rounded (rounded_two_pow_mul htau 2) (by nlinarith)
  constructor
  · rw [add_comm]
    exact rounded_add_of_small hdt' htau (by rw [hbinade]; linarith)
  · rw [weightedSum, add_comm]
    exact rounded_add_of_small (single.rounded_nonneg _) (single.rounded_rounded _)
      (by rw [hbinade]; linarith)

variable (hprevious' : previous ≤ 2 ^ 6)
  (hproduct : single.rounded (tau * previous) < single.overflow)
include hprevious' hproduct

/-- Neither the weight nor the weighted sum overflows unless the product does. -/
theorem weightedSum_lt_overflow :
    single.rounded (dt + tau) < single.overflow ∧
      single.weightedSum tau dt previous sample < single.overflow := by
  have htau' : 0 ≤ tau := nonneg_of_rounded htau
  have hdt' : 0 ≤ dt := nonneg_of_rounded hdt
  rcases le_or_gt (2 ^ 100) tau with hlarge | hsmall
  · obtain ⟨hweight, hsum⟩ := swallows_of_le htau hdt hlast hprevious hsample hsample' hlarge
    have hheld : tau ≤ single.rounded (tau * previous) := le_rounded htau (by nlinarith)
    rw [hweight, hsum]
    exact ⟨hheld.trans_lt hproduct, hproduct⟩
  · have hweight : single.rounded (dt + tau) ≤ 2 ^ 101 :=
      rounded_le (rounded_two_pow_single 101) (add_nonneg hdt' htau') (by linarith)
    have hsum := weightedSum_le even_binade_single htau hdt (by linarith) (by linarith)
      hprevious' hsample'
    rw [overflow_single]
    constructor <;> linarith

/-- The next product does not overflow either. -/
theorem mul_average_lt_overflow (hheld : single.rounded previous = previous)
    (hweight : 0 < single.rounded (dt + tau)) :
    single.rounded (tau * single.average tau dt previous sample) < single.overflow := by
  have htau' : 0 ≤ tau := nonneg_of_rounded htau
  rcases le_or_gt (2 ^ 100) tau with hlarge | hsmall
  · obtain ⟨hweight', hsum⟩ := swallows_of_le htau hdt hlast hprevious hsample hsample' hlarge
    rw [average, hweight', hsum]
    exact (rounded_mul_div_mul_le (by linarith) hheld).trans_lt hproduct
  · obtain ⟨hlow, hhigh⟩ := average_mem even_binade_single htau hdt rounded_one_single
      hweight hprevious hsample hprevious' hsample'
    have hnext : single.rounded (tau * single.average tau dt previous sample) ≤ 2 ^ 106 :=
      rounded_le (rounded_two_pow_single 106) (by nlinarith) (by nlinarith)
    rw [overflow_single]
    linarith

end Overflow

end Format

open Binary

section Filter

open Format

variable {tau dt previous sample : Single}

/-- The filter computes the average, if there is any weight. -/
theorem lowPass_spec (htau : tau.IsMagnitude) (hdt : dt.IsMagnitude)
    (hprevious : previous.IsMagnitude) (hsample : sample.IsMagnitude)
    (hweight : single.rounded (dt.toRat + tau.toRat) < single.overflow)
    (hsum : single.weightedSum tau.toRat dt.toRat previous.toRat sample.toRat <
      single.overflow)
    (haverage : 0 < single.rounded (dt.toRat + tau.toRat) →
      single.average tau.toRat dt.toRat previous.toRat sample.toRat < single.overflow) :
    lowPass tau dt previous sample = sample ∨
      0 < single.rounded (dt.toRat + tau.toRat) ∧
        (lowPass tau dt previous sample).IsMagnitude ∧
        (lowPass tau dt previous sample).toRat =
          single.average tau.toRat dt.toRat previous.toRat sample.toRat := by
  obtain ⟨hw, hweight'⟩ := add_spec hdt htau hweight
  unfold lowPass
  dsimp only
  by_cases hnone : dt + tau ≤ 0
  · exact Or.inl (if_pos hnone)
  · have hpos : 0 < single.rounded (dt.toRat + tau.toRat) := by
      rwa [le_iff_toRat hw.finite zero_mem.1, zero_mem.2, hweight', not_le] at hnone
    -- both products lie below the sum
    have hsampled := le_rounded (single.rounded_rounded (dt.toRat * sample.toRat))
      (le_add_of_nonneg_right (single.rounded_nonneg (tau.toRat * previous.toRat)))
    have hheld := le_rounded (single.rounded_rounded (tau.toRat * previous.toRat))
      (le_add_of_nonneg_left (single.rounded_nonneg (dt.toRat * sample.toRat)))
    obtain ⟨ha, hsampled'⟩ := mul_spec hdt hsample (hsampled.trans_lt hsum)
    obtain ⟨hb, hheld'⟩ := mul_spec htau hprevious (hheld.trans_lt hsum)
    rw [weightedSum, ← hsampled', ← hheld'] at hsum
    obtain ⟨hn, hsum'⟩ := add_spec ha hb hsum
    rw [hsampled', hheld', ← weightedSum] at hsum'
    have hquotient := haverage hpos
    rw [average, ← hsum', ← hweight'] at hquotient
    rw [if_neg hnone]
    refine Or.inr ⟨hpos, ?_⟩
    rw [average, ← hsum', ← hweight']
    exact div_spec hn hw (by rwa [hweight']) hquotient

/-- Only a time constant of zero gives no weight. -/
theorem tau_of_no_weight (htau : 0 ≤ tau) (hdt : dt.IsMagnitude) (h : dt + tau ≤ 0) :
    tau.IsMagnitude ∧ tau.toRat = 0 := by
  have htauFin : tau.isFinite := by
    cases tau with
    | nan => cases htau
    | infinity s =>
        obtain rfl := not_neg_infinity.1 (not_neg_of_nonneg htau)
        cases dt with
        | nan => cases hdt.finite
        | infinity t => cases hdt.finite
        | finite t rank => cases h
    | finite s rank => rfl
  rw [le_iff, ordinal_zero] at htau h
  obtain ⟨z, hz⟩ := add_eq_round hdt.finite htauFin
  have hle : tau.toRat ≤ dt.toRat + tau.toRat := le_add_of_nonneg_left hdt.nonneg
  have hmono := single.nearest_mono hle
  rw [nearest_toRat htauFin, ← ordinal_round z, ← hz] at hmono
  have hzero : tau.toRat = 0 := by
    rw [toRat_eq_value htauFin, le_antisymm (hmono.trans h.2.2) htau.2.2, single.value_zero]
  exact ⟨⟨htauFin, hzero.ge⟩, hzero⟩

/-- With some weight, the filter is finite only if the product is. -/
theorem isFinite_of_lowPass (hweight : ¬ dt + tau ≤ 0)
    (h : (lowPass tau dt previous sample).isFinite) : (tau * previous).isFinite := by
  unfold lowPass at h
  dsimp only at h
  rw [if_neg hweight] at h
  exact (isFinite_of_add (isFinite_of_div h)).2

end Filter

end MotorSupervisor
