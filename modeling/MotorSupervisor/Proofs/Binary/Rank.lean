import Mathlib.Algebra.Order.Field.Power
import Mathlib.Data.Nat.Log
import Mathlib.Tactic
import MotorSupervisor.Binary.Format

/-!
# Ranks and magnitudes

The magnitudes of a format grow with their ranks, and neighbouring magnitudes
are one **gap** apart, a power of two.  From this single equation,
`magnitude_succ`, the module derives where the rounding functions of `Format`
put a rational.

**Results.**
* `magnitude_strictMono`: magnitudes have the order of their ranks.
* `floorRank_spec`: `floorRank` brackets a rational between two neighbours.
* `nearestRank_le_iff`: a rational is rounded to a rank or below it exactly
  when it lies below the midpoint above the rank, or on it if the rank is
  even.
* `nearestRank_lt_of_two_mul_le`: a double is rounded to a higher rank.
-/

namespace MotorSupervisor
namespace Format

variable (F : Format)

theorem binade_eq : F.binade = 2 ^ F.fractionBits := by
  rw [binade, Nat.one_shiftLeft]

theorem binade_pos : 0 < F.binade := by
  rw [binade_eq]
  exact Nat.two_pow_pos _

/-- The distance from a rank to the next one. -/
def gap (rank : Nat) : ℚ :=
  2 ^ (F.leastExponent + F.shift rank)

theorem gap_pos (r : Nat) : 0 < F.gap r := by
  unfold gap
  positivity

theorem scaled_eq (s : Nat) (e : Int) :
    scaled s e = (s : ℚ) * 2 ^ e := by
  cases e with
  | ofNat e =>
      simp [scaled, Nat.shiftLeft_eq]
  | negSucc e =>
      rw [scaled, Rat.mkRat_eq_div, zpow_negSucc, Nat.one_shiftLeft]
      push_cast
      rw [div_eq_mul_inv]

theorem magnitude_eq (r : Nat) :
    F.magnitude r = F.significand r * F.gap r :=
  scaled_eq _ _

section Parts

variable {F} {k n : Nat} (hlead : k = 0 ∨ F.binade ≤ n)
include hlead

theorem shift_parts (hn : n < 2 * F.binade) :
    F.shift (k * F.binade + n) = k := by
  have hpos := F.binade_pos
  unfold shift
  rw [Nat.mul_comm, Nat.mul_add_div hpos]
  rcases hlead with rfl | hlead
  · have : n / F.binade < 2 := Nat.div_lt_of_lt_mul (by omega)
    omega
  · have : n / F.binade = 1 := Nat.div_eq_of_lt_le (by omega) (by omega)
    omega

theorem significand_parts (hn : n < 2 * F.binade) :
    F.significand (k * F.binade + n) = n := by
  have hpos := F.binade_pos
  unfold significand
  rw [Nat.mul_comm, Nat.mul_add_mod]
  by_cases hlow : n < F.binade
  · rcases hlead with rfl | hlead
    · simp [hlow]
    · omega
  · have hmod : n % F.binade = n - F.binade := by
      rw [Nat.mod_eq_sub_mod (by omega), Nat.mod_eq_of_lt (by omega)]
    rw [if_neg (by omega), hmod]
    omega

/-- The end of a binade is the beginning of the next one. -/
theorem magnitude_parts (hn : n ≤ 2 * F.binade) :
    F.magnitude (k * F.binade + n) = n * 2 ^ (F.leastExponent + k) := by
  have hpos := F.binade_pos
  rcases Nat.lt_or_eq_of_le hn with hlt | rfl
  · rw [magnitude_eq, gap, shift_parts hlead hlt, significand_parts hlead hlt]
  · have hrank : k * F.binade + 2 * F.binade = (k + 1) * F.binade + F.binade := by
      ring
    have hnext : k + 1 = 0 ∨ F.binade ≤ F.binade := Or.inr le_rfl
    rw [hrank, magnitude_eq, gap, shift_parts hnext (by omega),
      significand_parts hnext (by omega)]
    push_cast
    rw [← add_assoc, zpow_add_one₀ (by norm_num)]
    ring

end Parts

theorem significand_lt (r : Nat) : F.significand r < 2 * F.binade := by
  unfold significand
  have := Nat.mod_lt r F.binade_pos
  split <;> omega

theorem significand_lead (r : Nat) : F.shift r = 0 ∨ F.binade ≤ F.significand r := by
  unfold shift significand
  by_cases hr : r < F.binade
  · left
    rw [Nat.div_eq_of_lt hr]
  · right
    rw [if_neg hr]
    omega

theorem parts_eq (r : Nat) : F.shift r * F.binade + F.significand r = r := by
  unfold shift significand
  have hdm := Nat.div_add_mod r F.binade
  by_cases hr : r < F.binade
  · simp [hr, Nat.div_eq_of_lt hr]
  · have hq : 1 ≤ r / F.binade := (Nat.one_le_div_iff F.binade_pos).2 (by omega)
    have hsplit : (r / F.binade - 1) * F.binade + F.binade = F.binade * (r / F.binade) := by
      rw [← Nat.succ_mul, Nat.succ_eq_add_one, Nat.sub_add_cancel hq, Nat.mul_comm]
    rw [if_neg hr]
    omega

theorem magnitude_succ (r : Nat) :
    F.magnitude (r + 1) = F.magnitude r + F.gap r := by
  have hlt := F.significand_lt r
  have hlead : F.shift r = 0 ∨ F.binade ≤ F.significand r + 1 :=
    (F.significand_lead r).imp_right (by omega)
  calc F.magnitude (r + 1)
      = F.magnitude (F.shift r * F.binade + (F.significand r + 1)) := by
        rw [← add_assoc, parts_eq]
    _ = ((F.significand r + 1 : Nat) : ℚ) * F.gap r :=
        magnitude_parts hlead (by omega)
    _ = F.magnitude r + F.gap r := by
        rw [magnitude_eq]
        push_cast
        ring

theorem magnitude_strictMono : StrictMono F.magnitude := by
  apply strictMono_nat_of_lt_succ
  intro r
  rw [magnitude_succ]
  linarith [F.gap_pos r]

theorem magnitude_zero : F.magnitude 0 = 0 := by
  rw [magnitude_eq]
  simp [significand, F.binade_pos]

theorem magnitude_nonneg (r : Nat) : 0 ≤ F.magnitude r := by
  rw [← F.magnitude_zero]
  exact F.magnitude_strictMono.monotone (Nat.zero_le r)

theorem midpoint_eq (r : Nat) :
    F.midpoint r = F.magnitude r + F.gap r / 2 := by
  unfold midpoint
  rw [scaled_eq, magnitude_eq, gap, zpow_sub_one₀ (by norm_num)]
  push_cast
  ring

theorem magnitude_lt_midpoint (r : Nat) : F.magnitude r < F.midpoint r := by
  rw [midpoint_eq]
  linarith [F.gap_pos r]

theorem midpoint_lt_magnitude_succ (r : Nat) :
    F.midpoint r < F.magnitude (r + 1) := by
  rw [midpoint_eq, magnitude_succ]
  linarith [F.gap_pos r]

theorem num_div_den {q : ℚ} (hq : 0 ≤ q) :
    q = (q.num.toNat : ℚ) / q.den := by
  have hnum : ((q.num.toNat : Int) : ℚ) = q.num := by
    rw [Int.toNat_of_nonneg (Rat.num_nonneg.2 hq)]
  rw [← Int.cast_natCast, hnum, Rat.num_div_den]

theorem floorLog_spec {q : ℚ} (hq : 0 < q) :
    2 ^ floorLog q ≤ q ∧ q < 2 ^ (floorLog q + 1) := by
  have hnum : q.num.natAbs ≠ 0 := by
    simpa using hq.ne'
  have hden := q.den_ne_zero
  have hdenQ : (0 : ℚ) < q.den := by exact_mod_cast q.den_pos
  have hvalue : q = (q.num.natAbs : ℚ) / q.den := by
    rw [← Int.toNat_of_nonneg (Rat.num_nonneg.2 hq.le)]
    exact num_div_den hq.le
  have hnum₁ : (2 : ℚ) ^ (Nat.log2 q.num.natAbs : Int) ≤ q.num.natAbs := by
    exact_mod_cast Nat.log2_self_le hnum
  have hnum₂ : (q.num.natAbs : ℚ) < 2 ^ ((Nat.log2 q.num.natAbs : Int) + 1) := by
    exact_mod_cast Nat.lt_log2_self
  have hden₁ : (2 : ℚ) ^ (Nat.log2 q.den : Int) ≤ q.den := by
    exact_mod_cast Nat.log2_self_le hden
  have hden₂ : (q.den : ℚ) < 2 ^ ((Nat.log2 q.den : Int) + 1) := by
    exact_mod_cast Nat.lt_log2_self
  unfold floorLog
  dsimp only
  rw [scaled_eq, Nat.cast_one, one_mul]
  generalize (Nat.log2 q.num.natAbs : Int) = a at *
  generalize (Nat.log2 q.den : Int) = b at *
  have hupper : q < 2 ^ (a - b + 1) := by
    rw [hvalue, div_lt_iff₀ hdenQ]
    calc (q.num.natAbs : ℚ) < 2 ^ (a + 1) := hnum₂
      _ = 2 ^ (a - b + 1) * 2 ^ b := by
          rw [← zpow_add₀ (by norm_num)]
          congr 1
          ring
      _ ≤ 2 ^ (a - b + 1) * q.den :=
          mul_le_mul_of_nonneg_left hden₁ (by positivity)
  have hlower : 2 ^ (a - b - 1) ≤ q := by
    rw [hvalue, le_div_iff₀ hdenQ]
    calc (2 : ℚ) ^ (a - b - 1) * q.den ≤ 2 ^ (a - b - 1) * 2 ^ (b + 1) :=
          mul_le_mul_of_nonneg_left hden₂.le (by positivity)
      _ = 2 ^ a := by
          rw [← zpow_add₀ (by norm_num)]
          congr 1
          ring
      _ ≤ q.num.natAbs := hnum₁
  split_ifs with h
  · exact ⟨h, hupper⟩
  · rw [sub_add_cancel]
    exact ⟨hlower, not_le.1 h⟩

theorem floorQuotient_spec {q : ℚ} (hq : 0 ≤ q) (e : Int) :
    (floorQuotient q e : ℚ) * 2 ^ e ≤ q ∧ q < (floorQuotient q e + 1) * 2 ^ e := by
  have hden : (0 : ℚ) < q.den := by exact_mod_cast q.den_pos
  have hvalue := num_div_den hq
  cases e with
  | ofNat e =>
      have hpos : 0 < q.den * 2 ^ e := by
        have := q.den_pos
        positivity
      have hle : q.num.toNat / (q.den * 2 ^ e) * (q.den * 2 ^ e) ≤ q.num.toNat :=
        Nat.div_mul_le_self _ _
      have hlt : q.num.toNat < (q.num.toNat / (q.den * 2 ^ e) + 1) * (q.den * 2 ^ e) := by
        rw [Nat.mul_comm]
        exact Nat.lt_mul_div_succ _ hpos
      simp only [floorQuotient, Nat.shiftLeft_eq, Int.ofNat_eq_natCast, zpow_natCast]
      rw [hvalue, le_div_iff₀ hden, div_lt_iff₀ hden, ← hvalue]
      constructor
      · rw [mul_assoc, mul_comm (2 ^ e : ℚ)]
        exact_mod_cast hle
      · rw [mul_assoc, mul_comm (2 ^ e : ℚ)]
        exact_mod_cast hlt
  | negSucc e =>
      have hle : q.num.toNat * 2 ^ (e + 1) / q.den * q.den ≤ q.num.toNat * 2 ^ (e + 1) :=
        Nat.div_mul_le_self _ _
      have hlt : q.num.toNat * 2 ^ (e + 1) <
          (q.num.toNat * 2 ^ (e + 1) / q.den + 1) * q.den := by
        rw [Nat.mul_comm _ q.den]
        exact Nat.lt_mul_div_succ _ q.den_pos
      have htwo : (0 : ℚ) < 2 ^ (e + 1) := by positivity
      simp only [floorQuotient, Nat.shiftLeft_eq, zpow_negSucc, ← div_eq_mul_inv]
      rw [div_le_iff₀ htwo, lt_div_iff₀ htwo]
      rw [hvalue, div_mul_eq_mul_div, le_div_iff₀ hden, div_lt_iff₀ hden, ← hvalue]
      constructor
      · exact_mod_cast hle
      · exact_mod_cast hlt

/-- `floorRank` brackets a rational between two neighbours. -/
theorem floorRank_spec {q : ℚ} (hq : 0 ≤ q) :
    F.magnitude (F.floorRank q) ≤ q ∧ q < F.magnitude (F.floorRank q + 1) := by
  unfold floorRank
  split_ifs with hzero
  · have := F.magnitude_strictMono (Nat.zero_lt_one)
    rw [F.magnitude_zero] at this
    rw [hzero, F.magnitude_zero]
    exact ⟨le_rfl, this⟩
  · have hpos : 0 < q := lt_of_le_of_ne hq (Ne.symm hzero)
    obtain ⟨hlog₁, hlog₂⟩ := floorLog_spec hpos
    dsimp only
    generalize hk : (floorLog q - F.fractionBits - F.leastExponent).toNat = k
    obtain ⟨hfloor₁, hfloor₂⟩ := floorQuotient_spec hq (F.leastExponent + k)
    generalize floorQuotient q (F.leastExponent + k) = n at *
    have hbinade : (F.binade : ℚ) = 2 ^ (F.fractionBits : Int) := by
      simp [binade_eq]
    have htwo : (0 : ℚ) < 2 ^ (F.leastExponent + k) := by positivity
    have hn : n < 2 * F.binade := by
      have : (n : ℚ) * 2 ^ (F.leastExponent + k) <
          2 * F.binade * 2 ^ (F.leastExponent + k) := by
        calc (n : ℚ) * 2 ^ (F.leastExponent + k) ≤ q := hfloor₁
          _ < 2 ^ (floorLog q + 1) := hlog₂
          _ ≤ 2 ^ (1 + (F.fractionBits : Int) + (F.leastExponent + k)) :=
              zpow_le_zpow_right₀ (by norm_num) (by omega)
          _ = 2 * F.binade * 2 ^ (F.leastExponent + k) := by
              rw [hbinade, zpow_add₀ (by norm_num), zpow_add₀ (by norm_num), zpow_one]
      exact_mod_cast lt_of_mul_lt_mul_right this htwo.le
    have hlead : k = 0 ∨ F.binade ≤ n := by
      rcases Nat.eq_zero_or_pos k with hk0 | hkpos
      · exact Or.inl hk0
      · right
        have : (F.binade : ℚ) * 2 ^ (F.leastExponent + k) <
            (n + 1) * 2 ^ (F.leastExponent + k) := by
          calc (F.binade : ℚ) * 2 ^ (F.leastExponent + k) = 2 ^ floorLog q := by
                rw [hbinade, ← zpow_add₀ (by norm_num)]
                congr 1
                omega
            _ ≤ q := hlog₁
            _ < _ := hfloor₂
        have : F.binade < n + 1 := by
          exact_mod_cast lt_of_mul_lt_mul_right this htwo.le
        omega
    rw [add_assoc, magnitude_parts hlead hn.le,
      magnitude_parts (hlead.imp_right (by omega)) (by omega)]
    push_cast
    exact ⟨hfloor₁, hfloor₂⟩

/-- The nearest rank stays at or below a rank exactly up to the midpoint above
it; on the midpoint itself the even rank wins. -/
theorem nearestRank_le_iff {q : ℚ} (hq : 0 ≤ q) (r : Nat) :
    F.nearestRank q ≤ r ↔ q < F.midpoint r ∨ (q = F.midpoint r ∧ r % 2 = 0) := by
  obtain ⟨h₁, h₂⟩ := F.floorRank_spec hq
  generalize hbelow : F.floorRank q = below at h₁ h₂
  have hnear : F.nearestRank q =
      if q < F.midpoint below then below
      else if F.midpoint below < q then below + 1
      else below + below % 2 := by
    rw [nearestRank, hbelow]
  rw [hnear]
  rcases lt_trichotomy below r with hlt | rfl | hgt
  · -- the bracket of `q` ends at or below `r`
    have hq' : q < F.midpoint r :=
      h₂.trans_le ((F.magnitude_strictMono.monotone hlt).trans (F.magnitude_lt_midpoint r).le)
    simp only [hq', true_or, iff_true]
    split_ifs <;> omega
  · rcases lt_trichotomy q (F.midpoint below) with h | h | h
    · simp [h]
    · simp only [h, lt_irrefl, if_false, false_or, true_and]
      omega
    · simp only [h, not_lt_of_gt h, h.ne', if_true, if_false, false_and, or_false, iff_false]
      omega
  · have hq' : F.midpoint r < q :=
      (F.midpoint_lt_magnitude_succ r).trans_le
        ((F.magnitude_strictMono.monotone (by omega)).trans h₁)
    simp only [not_lt_of_gt hq', hq'.ne', false_and, or_false, iff_false]
    split_ifs <;> omega

theorem nearestRank_mono {p q : ℚ} (hp : 0 ≤ p) (h : p ≤ q) :
    F.nearestRank p ≤ F.nearestRank q := by
  have hq := (F.nearestRank_le_iff (hp.trans h) (F.nearestRank q)).1 le_rfl
  rw [nearestRank_le_iff F hp]
  rcases hq with hq | ⟨hq, heven⟩
  · exact Or.inl (h.trans_lt hq)
  · exact (hq ▸ h).lt_or_eq.imp_right fun h => ⟨h, heven⟩

/-- A magnitude is its own nearest. -/
theorem nearestRank_magnitude (r : Nat) : F.nearestRank (F.magnitude r) = r := by
  apply le_antisymm
  · rw [nearestRank_le_iff F (F.magnitude_nonneg r)]
    exact Or.inl (F.magnitude_lt_midpoint r)
  · rcases r with _ | r
    · exact Nat.zero_le _
    · by_contra h
      have h' : F.nearestRank (F.magnitude (r + 1)) ≤ r := by omega
      rw [nearestRank_le_iff F (F.magnitude_nonneg _)] at h'
      have := F.midpoint_lt_magnitude_succ r
      rcases h' with h' | ⟨h', -⟩
      · exact lt_asymm this h'
      · exact this.ne' h'

theorem nearestRank_zero : F.nearestRank 0 = 0 := by
  have := F.nearestRank_magnitude 0
  rwa [F.magnitude_zero] at this

/-- Outside the first binade neighbours are close in proportion. -/
theorem mul_gap_le {r n : Nat} (hn : n ≤ F.binade) (hr : F.binade ≤ r) :
    n * F.gap r ≤ F.magnitude r := by
  have hlead : F.binade ≤ F.significand r := by
    rw [significand, if_neg (not_lt.2 hr)]
    omega
  rw [magnitude_eq]
  exact mul_le_mul_of_nonneg_right (by exact_mod_cast hn.trans hlead) (F.gap_pos r).le

/-- Outside the first binade a double is never rounded to the same rank. -/
theorem nearestRank_lt_of_two_mul_le {p q : ℚ} (hbinade : 4 ≤ F.binade)
    (hp : F.magnitude (F.binade + 1) ≤ p) (h : 2 * p ≤ q) :
    F.nearestRank p < F.nearestRank q := by
  have hp₀ : 0 ≤ p := (F.magnitude_nonneg _).trans hp
  have hmono := F.nearestRank_mono (F.magnitude_nonneg _) hp
  rw [nearestRank_magnitude] at hmono
  obtain ⟨r, hr⟩ : ∃ r, F.nearestRank p = r + 1 := ⟨F.nearestRank p - 1, by omega⟩
  by_contra hle
  have hlow : F.magnitude r ≤ p := by
    by_contra hlt
    have := F.nearestRank_mono hp₀ (not_le.1 hlt).le
    rw [nearestRank_magnitude] at this
    omega
  have hhigh : q ≤ F.magnitude (r + 1 + 1) := by
    by_contra hlt
    have := F.nearestRank_mono (F.magnitude_nonneg _) (not_le.1 hlt).le
    rw [nearestRank_magnitude] at this
    omega
  have hpos : 0 < F.magnitude r := by
    rw [← F.magnitude_zero]
    exact F.magnitude_strictMono (by omega)
  -- two neighbours on, a magnitude has grown by less than its double
  have hgap := F.mul_gap_le hbinade (show F.binade ≤ r by omega)
  have hgap' := F.mul_gap_le hbinade (show F.binade ≤ r + 1 by omega)
  rw [magnitude_succ] at hgap'
  rw [magnitude_succ, magnitude_succ] at hhigh
  push_cast at hgap hgap'
  linarith

end Format
end MotorSupervisor
