import MotorSupervisor.Proofs.Binary.Integer
import MotorSupervisor.Proofs.Binary.Unit
import MotorSupervisor.Span

/-!
# Clock readings and measured times

The ticks between two readings become seconds in three roundings: the word is
rounded to the wider format, divided by the ticks in a second, and rounded to
the narrower one.  None of them overflows and each of them keeps the order, so
a longer time never becomes a smaller number.  One tick is far above the least
positive number, so only no time at all becomes zero.

**Definitions.**
* `Clock.seconds`: the three roundings on rationals.

**Results.**
* `toNat_elapsed`, `elapsed_pos_iff`: the ticks between two readings.
* `toSeconds_spec`, `toSeconds_le`, `toSeconds_nonneg`: the number of any word
  of ticks.
* `toSeconds_mono`, `toSeconds_pos_iff`: its order and its beginning.
-/

namespace MotorSupervisor
namespace Clock

open Format Binary

section Elapsed

variable (earlier now : UInt64)

theorem toNat_elapsed : (elapsed earlier now).toNat = now.toNat - earlier.toNat := by
  unfold elapsed
  split
  · rename_i h
    exact UInt64.toNat_sub_of_le _ _ h
  · rename_i h
    have hlt : now.toNat < earlier.toNat := UInt64.lt_iff_toNat_lt.1 (UInt64.not_le.1 h)
    rw [Nat.sub_eq_zero_of_le hlt.le]
    rfl

theorem elapsed_pos_iff : 0 < elapsed earlier now ↔ earlier < now := by
  rw [UInt64.lt_iff_toNat_lt, UInt64.lt_iff_toNat_lt, toNat_elapsed, UInt64.toNat_zero]
  omega

end Elapsed

/-- Ticks as rounded seconds. -/
def seconds (ticks : Nat) : ℚ :=
  single.rounded (double.rounded (double.rounded ticks / ticksPerSecond))

/-- More ticks do not become a smaller number. -/
theorem seconds_mono {m n : Nat} (h : m ≤ n) : seconds m ≤ seconds n := by
  have hticks : double.rounded m ≤ double.rounded n :=
    rounded_mono (Nat.cast_nonneg m) (by exact_mod_cast h)
  have hquotient : double.rounded (double.rounded m / ticksPerSecond) ≤
      double.rounded (double.rounded n / ticksPerSecond) := by
    apply rounded_mono (div_nonneg (double.rounded_nonneg _) (Nat.cast_nonneg _))
    exact div_le_div_of_nonneg_right hticks (Nat.cast_nonneg _)
  exact rounded_mono (double.rounded_nonneg _) hquotient

/-- One tick is not lost. -/
theorem seconds_one_pos : 0 < seconds 1 := by
  decide +kernel

section Words

variable (ticks : UInt64)

/-- Neither the ticks of a word nor their quotient are extreme. -/
theorem rounded_ticks_le :
    double.rounded ticks.toNat ≤ 2 ^ 64 ∧
      double.rounded (double.rounded ticks.toNat / ticksPerSecond) ≤ 2 ^ 41 := by
  have hword : (ticks.toNat : ℚ) ≤ 2 ^ 64 := by exact_mod_cast ticks.toNat_lt.le
  have hrate : (ticksPerSecond : ℚ) = 10 ^ 7 := by norm_num [ticksPerSecond]
  have hticks : double.rounded ticks.toNat ≤ 2 ^ 64 :=
    rounded_le (by decide +kernel) (Nat.cast_nonneg _) hword
  refine ⟨hticks, rounded_le (by decide +kernel) ?_ ?_⟩
  · exact div_nonneg (double.rounded_nonneg _) (Nat.cast_nonneg _)
  · rw [hrate, div_le_iff₀ (by norm_num)]
    linarith

/-- A measured time is the rounded number of its ticks. -/
theorem toSeconds_spec :
    (toSeconds ticks).IsMagnitude ∧ (toSeconds ticks).toRat = seconds ticks.toNat := by
  have hword : (2 : ℚ) ^ 64 < double.overflow := by
    rw [overflow_double]
    exact pow_lt_pow_right₀ (by norm_num) (by norm_num)
  obtain ⟨hticks, hquotient⟩ := rounded_ticks_le ticks
  obtain ⟨hn, hn'⟩ := ofNat_spec (F := double) (n := ticks.toNat) (by linarith)
  obtain ⟨hr, hr'⟩ := ofNat_double (n := ticksPerSecond) (by decide)
  obtain ⟨hq, hq'⟩ := div_spec hn hr (by rw [hr']; norm_num [ticksPerSecond]) (by
    rw [hn', hr']
    linarith)
  rw [hn', hr'] at hq'
  obtain ⟨z, hz⟩ := toFormat_eq_round (G := single) hq.finite
  have hlast : single.rounded (ofNat ticks.toNat / ofNat ticksPerSecond : Double).toRat <
      single.overflow := by
    rw [hq', overflow_single]
    have hle := rounded_le (rounded_two_pow_single 41) (double.rounded_nonneg _) hquotient
    linarith
  obtain ⟨hs, hs'⟩ := round_spec hq.nonneg hlast z
  rw [toSeconds, hz]
  exact ⟨hs, hs'.trans (by rw [hq', seconds])⟩

theorem toSeconds_le : (toSeconds ticks).toRat ≤ 2 ^ 41 := by
  rw [(toSeconds_spec ticks).2]
  exact rounded_le (rounded_two_pow_single 41) (double.rounded_nonneg _)
    (rounded_ticks_le ticks).2

theorem toSeconds_nonneg : 0 ≤ toSeconds ticks := by
  obtain ⟨hfinite, hnonneg⟩ := (toSeconds_spec ticks).1
  rwa [le_iff_toRat zero_mem.1 hfinite, zero_mem.2]

variable {ticks}

/-- A longer time never becomes a smaller number. -/
theorem toSeconds_mono {more : UInt64} (h : ticks ≤ more) :
    toSeconds ticks ≤ toSeconds more := by
  obtain ⟨hfew, hfew'⟩ := toSeconds_spec ticks
  obtain ⟨hmore, hmore'⟩ := toSeconds_spec more
  rw [le_iff_toRat hfew.finite hmore.finite, hfew', hmore']
  exact seconds_mono (UInt64.le_iff_toNat_le.1 h)

theorem toSeconds_zero : toSeconds 0 = 0 := by
  decide +kernel

theorem toSeconds_pos_iff : 0 < toSeconds ticks ↔ 0 < ticks := by
  obtain ⟨hfinite, hvalue⟩ := toSeconds_spec ticks
  constructor
  · intro h
    rw [UInt64.pos_iff_ne_zero]
    rintro rfl
    rw [toSeconds_zero] at h
    exact isZero_zero.not_pos h
  · intro h
    rw [lt_iff_toRat zero_mem.1 hfinite.finite, zero_mem.2, hvalue]
    exact seconds_one_pos.trans_le (seconds_mono (UInt64.lt_iff_toNat_lt.1 h))

end Words

end Clock
end MotorSupervisor
