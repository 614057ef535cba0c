import MotorSupervisor.Program
import MotorSupervisor.Proofs.Binary.Order

/-!
# The requested duration

A requested duration is a 64-bit number of seconds.  A positive one becomes a length
of time if its whole seconds fit a 64-bit word.  The largest number below `2 ^ 64`
lies well below it, so that rounding to nanoseconds does not lead there, and the
comparison of numbers alone decides.

**Definitions.**
* `Program.durationLimit`: the least number of seconds that is too long.

**Results.**
* `roundHalfEven_le`, `le_roundHalfEven`: rounding does not pass an integer.
* `ofSecondsNumber?_eq_none_iff`: which positive numbers of seconds are too long.
* `deadlineOf_eq_none_iff`, `deadlineOf_eq_error_iff`, `exists_deadlineOf_iff`: the
  three kinds of requested durations.
-/

namespace MotorSupervisor

open Binary

section Rounding

variable {q : ℚ} {n : Nat}

theorem roundHalfEven_le (h : q ≤ n) : roundHalfEven q ≤ n := by
  have hbelow : q.floor.toNat ≤ n := by
    have hfloor : q.floor ≤ (n : ℤ) := by exact_mod_cast (Rat.floor_le q).trans h
    omega
  rcases hbelow.lt_or_eq with hlt | heq
  · unfold roundHalfEven
    dsimp only
    split_ifs <;> omega
  · have hrest : q - (q.floor.toNat : ℚ) < 1 / 2 := by
      rw [heq]
      linarith
    unfold roundHalfEven
    dsimp only
    rw [if_pos hrest, heq]

theorem le_roundHalfEven (h : (n : ℚ) ≤ q) : n ≤ roundHalfEven q := by
  have hbelow : n ≤ q.floor.toNat := by
    have hfloor : (n : ℤ) ≤ q.floor := Rat.le_floor_iff.2 (by exact_mod_cast h)
    omega
  unfold roundHalfEven
  dsimp only
  split_ifs <;> omega

end Rounding

namespace Program

/-- The least number of seconds whose whole seconds do not fit a 64-bit word. -/
def durationLimit : Double :=
  18446744073709551616

theorem durationLimit_spec :
    durationLimit.isFinite ∧ durationLimit.toRat = 2 ^ 64 ∧
      durationLimit.ordinal = (4895412794951729152 : Nat) ∧
      Format.double.magnitude 4895412794951729151 = 2 ^ 64 - 2048 := by
  decide +kernel

variable {duration : Double}

/-- The numbers below the limit stay away from it. -/
theorem toRat_le_of_lt_durationLimit (hfinite : duration.isFinite)
    (h : duration < durationLimit) : duration.toRat ≤ 2 ^ 64 - 2048 := by
  obtain ⟨-, -, hordinal, hbelow⟩ := durationLimit_spec
  have hlt := ((lt_iff _ _).1 h).2.2
  rw [hordinal] at hlt
  rw [← hbelow, ← Format.value_natCast, toRat_eq_value hfinite]
  exact Format.double.value_strictMono.monotone (by omega)

theorem isFinite_of_lt_durationLimit (hpos : 0 < duration) (h : duration < durationLimit) :
    duration.isFinite := by
  have hlimit := durationLimit_spec.1
  rw [isFinite_iff (isNaN_of_isFinite hlimit)] at hlimit
  have hlow := ((lt_iff _ _).1 hpos).2.2
  obtain ⟨hnumber, -, hhigh⟩ := (lt_iff _ _).1 h
  rw [ordinal_zero] at hlow
  rw [isFinite_iff hnumber]
  omega

/-- A positive number of seconds is a length of time up to the limit. -/
theorem ofSecondsNumber?_eq_none_iff (hpos : 0 < duration) :
    Span.ofSecondsNumber? duration = none ↔ ¬ duration < durationLimit := by
  have hlimit := durationLimit_spec
  unfold Span.ofSecondsNumber?
  by_cases hfinite : duration.isFinite
  · rw [if_pos hfinite]
    dsimp only
    by_cases hlt : duration < durationLimit
    · have hmost := toRat_le_of_lt_durationLimit hfinite hlt
      have hrounded : roundHalfEven (duration.toRat * 1000000000) ≤
          (UInt64.size - 2048) * 1000000000 := by
        apply roundHalfEven_le
        have hscaled := mul_le_mul_of_nonneg_right hmost (show (0 : ℚ) ≤ 1000000000 by norm_num)
        exact hscaled.trans_eq (by norm_num [UInt64.size])
      have hfits : roundHalfEven (duration.toRat * 1000000000) < UInt64.size * 1000000000 :=
        hrounded.trans_lt (by decide)
      rw [if_pos hfits]
      exact iff_of_false nofun (not_not.2 hlt)
    · have hleast : (2 ^ 64 : ℚ) ≤ duration.toRat := by
        rw [lt_iff_toRat hfinite hlimit.1, hlimit.2.1, not_lt] at hlt
        exact hlt
      have hrounded : UInt64.size * 1000000000 ≤
          roundHalfEven (duration.toRat * 1000000000) := by
        apply le_roundHalfEven
        have hscaled := mul_le_mul_of_nonneg_right hleast (show (0 : ℚ) ≤ 1000000000 by norm_num)
        exact (Eq.le (by norm_num [UInt64.size])).trans hscaled
      rw [if_neg hrounded.not_gt]
      exact iff_of_true rfl hlt
  · rw [if_neg hfinite]
    exact iff_of_true rfl fun hlt => hfinite (isFinite_of_lt_durationLimit hpos hlt)

theorem deadlineOf_eq_none_iff : deadlineOf duration = .ok none ↔ ¬ 0 < duration := by
  unfold deadlineOf
  by_cases hpos : 0 < duration
  · rw [if_pos hpos]
    cases Span.ofSecondsNumber? duration <;> simp [hpos]
  · simp [hpos]

/-- The durations that cannot be measured. -/
theorem deadlineOf_eq_error_iff :
    deadlineOf duration = .error () ↔ 0 < duration ∧ ¬ duration < durationLimit := by
  unfold deadlineOf
  by_cases hpos : 0 < duration
  · rw [if_pos hpos, ← ofSecondsNumber?_eq_none_iff hpos]
    cases Span.ofSecondsNumber? duration <;> simp [hpos]
  · simp [hpos]

/-- The durations after which a program ends by itself. -/
theorem exists_deadlineOf_iff :
    (∃ deadline, deadlineOf duration = .ok (some deadline)) ↔
      0 < duration ∧ duration < durationLimit := by
  rcases hdeadline : deadlineOf duration with ⟨⟨⟩⟩ | _ | deadline
  · have hlong := (deadlineOf_eq_error_iff.1 hdeadline).2
    simp [hlong]
  · have hopen := deadlineOf_eq_none_iff.1 hdeadline
    simp [hopen]
  · have hpos : 0 < duration := by
      by_contra hopen
      cases hdeadline.symm.trans (deadlineOf_eq_none_iff.2 hopen)
    have hlt : duration < durationLimit := by
      by_contra hlong
      cases hdeadline.symm.trans (deadlineOf_eq_error_iff.2 ⟨hpos, hlong⟩)
    exact iff_of_true ⟨deadline, rfl⟩ ⟨hpos, hlt⟩

end Program
end MotorSupervisor
