import MotorSupervisor.Proofs.Binary.Integer
import MotorSupervisor.Span

/-!
# Lengths of time

As a number, a length of time is a sum of two rounded parts, the whole seconds
and the rest.  The sum is rounded once more, and a second more can be lost on
the way, but a longer time never becomes a smaller number.

**Definitions.**
* `Span.Fits`: the whole seconds fit a 64-bit word.
* `Span.seconds`: the number on rationals.

**Results.**
* `seconds_mono`: the number does not decrease with the time.
* `toSeconds_spec`: the number of a length of time that fits.
* `toSeconds_mono`, `toSeconds_le`, `toSeconds_pos`: its order, its end and
  its beginning.
-/

namespace MotorSupervisor
namespace Span

attribute [ext] Span

section Arithmetic

variable (a b : Span)

@[simp] theorem nanoseconds_zero : zero.nanoseconds = 0 :=
  rfl

@[simp] theorem nanoseconds_add : (a + b).nanoseconds = a.nanoseconds + b.nanoseconds :=
  rfl

@[simp] theorem nanoseconds_sub : (a - b).nanoseconds = a.nanoseconds - b.nanoseconds :=
  rfl

variable {a b}

theorem le_def : a ≤ b ↔ a.nanoseconds ≤ b.nanoseconds :=
  Iff.rfl

theorem lt_def : a < b ↔ a.nanoseconds < b.nanoseconds :=
  Iff.rfl

end Arithmetic

/-- The whole seconds fit a 64-bit word. -/
def Fits (s : Span) : Prop :=
  s.nanoseconds < UInt64.size * 1000000000

instance (s : Span) : Decidable s.Fits :=
  inferInstanceAs (Decidable (_ < _))

/-- The longest time that fits. -/
def longest : Span :=
  ⟨UInt64.size * 1000000000 - 1⟩

theorem fits_longest : longest.Fits := by
  decide

theorem fits_ofMillis (n : UInt64) : (ofMillis n.toNat).Fits := by
  have hword : n.toNat < UInt64.size := n.toNat_lt
  show n.toNat * 1000000 < UInt64.size * 1000000000
  omega

theorem Fits.le_longest {s : Span} (h : s.Fits) : s ≤ longest :=
  Nat.le_sub_one_of_lt h

section Seconds

open Format Binary

/-- The fraction of a second. -/
def fraction (nanoseconds : Nat) : ℚ :=
  single.rounded (single.rounded (nanoseconds % 1000000000 : Nat) / 1000000000)

/-- Nanoseconds as rounded seconds. -/
def seconds (nanoseconds : Nat) : ℚ :=
  single.rounded (single.rounded (nanoseconds / 1000000000 : Nat) + fraction nanoseconds)

theorem fraction_nonneg (n : Nat) : 0 ≤ fraction n :=
  single.rounded_nonneg _

theorem fraction_mono {m n : Nat} (h : m % 1000000000 ≤ n % 1000000000) :
    fraction m ≤ fraction n := by
  apply rounded_mono (div_nonneg (single.rounded_nonneg _) (by norm_num))
  apply div_le_div_of_nonneg_right _ (by norm_num)
  exact rounded_mono (Nat.cast_nonneg _) (by exact_mod_cast h)

theorem rounded_billion : single.rounded 1000000000 = 1000000000 := by
  have hscaled := rounded_scaled (F := single) (n := 1953125) (e := 9) (by decide) (by decide)
  have hvalue : ((1953125 : Nat) : ℚ) * 2 ^ (9 : Int) = 1000000000 := by norm_num
  rwa [hvalue] at hscaled

theorem fraction_le_one (n : Nat) : fraction n ≤ 1 := by
  have hrest : single.rounded (n % 1000000000 : Nat) ≤ 1000000000 := by
    apply rounded_le rounded_billion (Nat.cast_nonneg _)
    exact_mod_cast (Nat.mod_lt n (by norm_num)).le
  apply rounded_le rounded_one_single (div_nonneg (single.rounded_nonneg _) (by norm_num))
  rwa [div_le_one (by norm_num)]

/-- A longer time does not become a smaller number. -/
theorem seconds_mono {m n : Nat} (h : m ≤ n) : seconds m ≤ seconds n := by
  have hnonneg : ∀ k : Nat, 0 ≤ single.rounded (k / 1000000000 : Nat) + fraction k :=
    fun k => add_nonneg (single.rounded_nonneg _) (fraction_nonneg k)
  have hwhole : m / 1000000000 ≤ n / 1000000000 := Nat.div_le_div_right h
  rcases hwhole.lt_or_eq with hlt | heq
  · -- at least one whole second more, which the rest of a second does not exceed
    have hnext : ((m / 1000000000 : Nat) : ℚ) + 1 ≤ (n / 1000000000 : Nat) := by
      exact_mod_cast hlt
    calc seconds m
        ≤ single.rounded (single.rounded (m / 1000000000 : Nat) + 1) :=
          rounded_mono (hnonneg m) (by linarith [fraction_le_one m])
      _ ≤ single.rounded ((m / 1000000000 : Nat) + 1) :=
          rounded_rounded_add_one_le (by decide) _
      _ ≤ single.rounded (n / 1000000000 : Nat) := rounded_mono (by positivity) hnext
      _ = single.rounded (single.rounded (n / 1000000000 : Nat)) :=
          (single.rounded_rounded _).symm
      _ ≤ seconds n :=
          rounded_mono (single.rounded_nonneg _) (by linarith [fraction_nonneg n])
  · have hrest : m % 1000000000 ≤ n % 1000000000 := by omega
    rw [seconds, seconds, heq]
    apply rounded_mono
    · exact add_nonneg (single.rounded_nonneg _) (fraction_nonneg m)
    · linarith [fraction_mono hrest]

theorem seconds_longest : seconds longest.nanoseconds = 2 ^ 64 := by
  decide +kernel

theorem seconds_le (s : Span) (h : s.Fits) : seconds s.nanoseconds ≤ 2 ^ 64 := by
  rw [← seconds_longest]
  exact seconds_mono h.le_longest

variable {s : Span}

/-- The number of a length of time that fits. -/
theorem toSeconds_spec (h : s.Fits) :
    s.toSeconds.IsMagnitude ∧ s.toSeconds.toRat = seconds s.nanoseconds := by
  have hoverflow := overflow_single
  have hwhole : ((s.nanoseconds / 1000000000 : Nat) : ℚ) ≤ 2 ^ 64 := by
    have hlt : s.nanoseconds / 1000000000 < UInt64.size := Nat.div_lt_of_lt_mul (by
      rw [Nat.mul_comm]
      exact h)
    exact_mod_cast hlt.le
  have hrest : ((s.nanoseconds % 1000000000 : Nat) : ℚ) ≤ 2 ^ 64 := by
    have hlt := Nat.mod_lt s.nanoseconds (show 1000000000 > 0 by norm_num)
    exact_mod_cast hlt.le.trans (by norm_num)
  obtain ⟨hw, hw'⟩ := ofNat_spec (F := single) (n := s.nanoseconds / 1000000000) (by
    linarith [rounded_le (rounded_two_pow_single 64) (Nat.cast_nonneg _) hwhole])
  obtain ⟨hr, hr'⟩ := ofNat_spec (F := single) (n := s.nanoseconds % 1000000000) (by
    linarith [rounded_le (rounded_two_pow_single 64) (Nat.cast_nonneg _) hrest])
  have hbillion : single.rounded (1000000000 : Nat) = 1000000000 := by
    exact_mod_cast rounded_billion
  have hb := ofNat_spec (F := single) (n := 1000000000) (by
    rw [hbillion]
    linarith)
  rw [hbillion] at hb
  have hfraction : single.rounded ((ofNat (s.nanoseconds % 1000000000) : Single).toRat /
      (ofNat 1000000000 : Single).toRat) = fraction s.nanoseconds := by
    rw [hr', hb.2, fraction]
  obtain ⟨hq, hq'⟩ := div_spec hr hb.1 (by rw [hb.2]; norm_num) (by
    rw [hfraction]
    linarith [fraction_le_one s.nanoseconds])
  rw [hfraction] at hq'
  have hsum : single.rounded ((ofNat (s.nanoseconds / 1000000000) : Single).toRat +
      (ofNat (s.nanoseconds % 1000000000) / ofNat 1000000000 : Single).toRat) =
      seconds s.nanoseconds := by
    rw [hw', hq', seconds]
  rw [← hsum]
  exact add_spec hw hq (by
    rw [hsum]
    linarith [seconds_le s h])

theorem toSeconds_mono {a b : Span} (ha : a.Fits) (hb : b.Fits) (h : a ≤ b) :
    a.toSeconds.toRat ≤ b.toSeconds.toRat := by
  rw [(toSeconds_spec ha).2, (toSeconds_spec hb).2]
  exact seconds_mono h

theorem toSeconds_le (h : s.Fits) : s.toSeconds.toRat ≤ 2 ^ 64 := by
  rw [(toSeconds_spec h).2]
  exact seconds_le s h

theorem toSeconds_longest :
    longest.toSeconds.IsMagnitude ∧ longest.toSeconds.toRat = 2 ^ 64 := by
  rw [← seconds_longest]
  exact toSeconds_spec fits_longest

theorem toSeconds_pos (h : s.Fits) (hpos : zero < s) : 0 < s.toSeconds.toRat := by
  have hleast : 0 < seconds 1 := by decide +kernel
  rw [(toSeconds_spec h).2]
  exact hleast.trans_le (seconds_mono hpos)

end Seconds

end Span
end MotorSupervisor
