import MotorSupervisor.Proofs.Binary.Order

/-!
# Laws of binary arithmetic

Operations on finite numbers are exact operations rounded once.  The finite
numbers are multiples of the least positive one, so that the sign of a sum or
difference survives the rounding; quotients and products of numbers that are
not negative are not negative.

**Results.**
* `not_neg_add`, `not_neg_mul`, `not_neg_div`: signs of results.
* `zero_le_add_iff`: signs of sums are exact.
* `sub_le_sub_right`, `div_le_div_right`: monotone operations.
* `round_le_one_iff`, `div_le_one_iff`: what is rounded to at most one.
-/

namespace MotorSupervisor
namespace Binary

variable {F : Format}

section Exact

variable {x y : Binary F} (hx : x.isFinite) (hy : y.isFinite)
include hx hy

theorem add_eq_round : ∃ z, x + y = round z (x.toRat + y.toRat) := by
  cases x with
  | nan => simp [isFinite] at hx
  | infinity => simp [isFinite] at hx
  | finite s rank =>
      cases y with
      | nan => simp [isFinite] at hy
      | infinity => simp [isFinite] at hy
      | finite t other => exact ⟨s && t, rfl⟩

theorem sub_eq_round : ∃ z, x - y = round z (x.toRat - y.toRat) := by
  obtain ⟨z, hz⟩ := add_eq_round hx (y := -y) (by rwa [isFinite_neg])
  refine ⟨z, ?_⟩
  rw [sub_eq_add_neg, ← toRat_neg]
  exact hz

theorem mul_eq_round : ∃ z, x * y = round z (x.toRat * y.toRat) := by
  cases x with
  | nan => simp [isFinite] at hx
  | infinity => simp [isFinite] at hx
  | finite s rank =>
      cases y with
      | nan => simp [isFinite] at hy
      | infinity => simp [isFinite] at hy
      | finite t other => exact ⟨s ^^ t, rfl⟩

theorem div_eq_round (h : y.toRat ≠ 0) : ∃ z, x / y = round z (x.toRat / y.toRat) := by
  cases x with
  | nan => simp [isFinite] at hx
  | infinity => simp [isFinite] at hx
  | finite s rank =>
      cases y with
      | nan => simp [isFinite] at hy
      | infinity => simp [isFinite] at hy
      | finite t other =>
          have hother : other.val ≠ 0 := by
            intro hzero
            apply h
            cases t <;> simp [toRat, hzero, F.magnitude_zero]
          refine ⟨s ^^ t, ?_⟩
          show div _ _ = _
          rw [div, if_neg hother]

end Exact

section Signs

variable [NeZero F.infinityRank] {x y : Binary F}

theorem not_neg_iff (x : Binary F) : ¬ x < 0 ↔ x.isNaN = true ∨ 0 ≤ x.ordinal := by
  rw [lt_iff]
  cases h : x.isNaN <;> simp

theorem not_neg_of_pos (h : 0 < x) : ¬ x < 0 := by
  rw [lt_iff] at h ⊢
  omega

theorem not_neg_of_nonneg (h : 0 ≤ x) : ¬ x < 0 := by
  rw [le_iff] at h
  rw [lt_iff]
  omega

theorem not_neg_finite {s : Bool} {rank : Fin F.infinityRank} :
    ¬ finite s rank < 0 ↔ 0 ≤ (finite s rank).toRat := by
  rw [not_neg_iff, toRat_finite, ← F.value_zero, F.value_strictMono.le_iff_le]
  simp

theorem not_neg_round {q : ℚ} (hq : 0 ≤ q) (z : Bool) : ¬ (round z q : Binary F) < 0 := by
  rw [not_neg_iff, ordinal_round]
  exact Or.inr (F.nearest_nonneg hq)

theorem not_neg_infinity {s : Bool} : ¬ (infinity s : Binary F) < 0 ↔ s = false := by
  have hF := Nat.pos_of_neZero F.infinityRank
  rw [not_neg_iff]
  cases s <;> simp
  omega

theorem not_neg_ofNat (n : Nat) : ¬ (ofNat n : Binary F) < 0 :=
  not_neg_round (Nat.cast_nonneg n) false

theorem not_neg_add (hx : ¬ x < 0) (hy : ¬ y < 0) : ¬ x + y < 0 := by
  show ¬ add x y < 0
  cases x with
  | nan => simp [add, not_neg_iff]
  | infinity s =>
      obtain rfl := not_neg_infinity.1 hx
      cases y with
      | nan => simp [add, not_neg_iff]
      | infinity t =>
          obtain rfl := not_neg_infinity.1 hy
          simpa [add] using hx
      | finite => simpa [add] using hx
  | finite s rank =>
      cases y with
      | nan => simp [add, not_neg_iff]
      | infinity t => simpa [add] using hy
      | finite t other =>
          exact not_neg_round (add_nonneg (not_neg_finite.1 hx) (not_neg_finite.1 hy)) _

/-- A magnitude other than zero decides the sign. -/
theorem sign_of_not_neg {s : Bool} {rank : Fin F.infinityRank}
    (h : ¬ finite s rank < 0) (hrank : rank.val ≠ 0) : s = false := by
  cases s with
  | false => rfl
  | true =>
      rcases (not_neg_iff _).1 h with hnan | hnonneg
      · cases hnan
      · rw [ordinal_finite, if_pos rfl] at hnonneg
        omega

theorem rank_ne_zero {s : Bool} {rank : Fin F.infinityRank} (h : 0 < finite s rank) :
    rank.val ≠ 0 := by
  intro hzero
  cases s <;> simp [lt_iff, hzero] at h

theorem not_neg_mul (hx : ¬ x < 0) (hy : ¬ y < 0) : ¬ x * y < 0 := by
  show ¬ mul x y < 0
  cases x with
  | nan => simp [mul, not_neg_iff]
  | infinity s =>
      obtain rfl := not_neg_infinity.1 hx
      cases y with
      | nan => simp [mul, not_neg_iff]
      | infinity t =>
          obtain rfl := not_neg_infinity.1 hy
          simpa [mul] using hx
      | finite t other =>
          by_cases hzero : other.val = 0
          · simp [mul, hzero, not_neg_iff]
          · obtain rfl := sign_of_not_neg hy hzero
            simpa [mul, hzero] using hx
  | finite s rank =>
      cases y with
      | nan => simp [mul, not_neg_iff]
      | infinity t =>
          obtain rfl := not_neg_infinity.1 hy
          by_cases hzero : rank.val = 0
          · simp [mul, hzero, not_neg_iff]
          · obtain rfl := sign_of_not_neg hx hzero
            simpa [mul, hzero] using hy
      | finite t other =>
          exact not_neg_round (mul_nonneg (not_neg_finite.1 hx) (not_neg_finite.1 hy)) _

theorem not_neg_div (hx : ¬ x < 0) (hy : 0 < y) : ¬ x / y < 0 := by
  show ¬ div x y < 0
  have hy' : ¬ y < 0 := not_neg_of_pos hy
  cases x with
  | nan => simp [div, not_neg_iff]
  | infinity s =>
      obtain rfl := not_neg_infinity.1 hx
      cases y with
      | nan => simp [div, not_neg_iff]
      | infinity t => simp [div, not_neg_iff]
      | finite t other =>
          have hother := rank_ne_zero hy
          obtain rfl := sign_of_not_neg hy' hother
          simpa [div] using hx
  | finite s rank =>
      cases y with
      | nan => simp [div, not_neg_iff]
      | infinity t => exact not_neg_round le_rfl _
      | finite t other =>
          have hother := rank_ne_zero hy
          simp only [div, if_neg hother]
          exact not_neg_round (div_nonneg (not_neg_finite.1 hx) (not_neg_finite.1 hy')) _

theorem not_neg_toFormat {G : Format} [NeZero G.infinityRank] (hx : ¬ x < 0) :
    ¬ x.toFormat G < 0 := by
  cases x with
  | nan => simp [toFormat, not_neg_iff]
  | infinity s =>
      obtain rfl := not_neg_infinity.1 hx
      exact not_neg_infinity.2 rfl
  | finite s rank => exact not_neg_round (not_neg_finite.1 hx) _

end Signs

section Grid

variable {x y : Binary F}

/-- Every value is a multiple of the least positive number. -/
theorem toRat_grid (x : Binary F) : ∃ k : ℤ, x.toRat = k * 2 ^ F.leastExponent := by
  have pos : ∀ r : Nat, ∃ k : ℤ, F.magnitude r = k * 2 ^ F.leastExponent := by
    intro r
    refine ⟨F.significand r * 2 ^ F.shift r, ?_⟩
    rw [F.magnitude_eq, Format.gap, zpow_add₀ (by norm_num), zpow_natCast]
    push_cast
    ring
  cases x with
  | nan => exact ⟨0, by simp [toRat]⟩
  | infinity => exact ⟨0, by simp [toRat]⟩
  | finite s rank =>
      obtain ⟨k, hk⟩ := pos rank
      cases s with
      | false => exact ⟨k, by simpa [toRat] using hk⟩
      | true => exact ⟨-k, by simp [toRat, hk]⟩

theorem midpoint_zero : F.midpoint 0 = 2 ^ F.leastExponent / 2 := by
  rw [F.midpoint_eq, F.magnitude_zero, Format.gap]
  simp [Format.shift]

variable [NeZero F.infinityRank]

theorem zero_le_round_iff {q : ℚ} {z : Bool} :
    0 ≤ (round z q : Binary F) ↔ -F.midpoint 0 ≤ q := by
  rw [le_iff, ordinal_round, ordinal_zero, F.nearest_nonneg_iff (Nat.pos_of_neZero _)]
  simp

theorem round_le_zero_iff {q : ℚ} {z : Bool} :
    (round z q : Binary F) ≤ 0 ↔ q ≤ F.midpoint 0 := by
  rw [le_iff, ordinal_round, ordinal_zero, F.nearest_nonpos_iff (Nat.pos_of_neZero _)]
  simp

/-- A sum is never too small to show its sign. -/
theorem zero_le_add_iff (hx : x.isFinite) (hy : y.isFinite) :
    0 ≤ x + y ↔ 0 ≤ x.toRat + y.toRat := by
  obtain ⟨z, hz⟩ := add_eq_round hx hy
  obtain ⟨k, hk⟩ := toRat_grid x
  obtain ⟨l, hl⟩ := toRat_grid y
  have hunit : (0 : ℚ) < 2 ^ F.leastExponent := by positivity
  rw [hz, zero_le_round_iff, midpoint_zero]
  constructor
  · intro h
    have hsum : x.toRat + y.toRat = ((k + l : ℤ) : ℚ) * 2 ^ F.leastExponent := by
      rw [hk, hl]
      push_cast
      ring
    rw [hsum] at h ⊢
    have : (-1 : ℚ) < ((k + l : ℤ) : ℚ) := by
      by_contra hle
      have := mul_le_mul_of_nonneg_right (not_lt.1 hle) hunit.le
      linarith
    have : 0 ≤ k + l := by
      have : (-1 : ℤ) < k + l := by exact_mod_cast this
      omega
    exact mul_nonneg (by exact_mod_cast this) hunit.le
  · intro h
    linarith

omit [NeZero F.infinityRank] in
/-- Two numbers are never closer than their precision allows. -/
theorem toRat_separated (hx : x.isFinite) (hy : y.isFinite) (hpos : 0 ≤ x.toRat)
    (h : x.toRat < y.toRat) : x.toRat * (1 + 1 / (2 * F.binade)) < y.toRat := by
  have hbinade : (0 : ℚ) < 2 * F.binade := by
    have := F.binade_pos
    positivity
  rw [toRat_eq_value hx] at hpos h ⊢
  rw [toRat_eq_value hy] at h ⊢
  have hord := F.value_strictMono.lt_iff_lt.1 h
  have hnonneg : 0 ≤ x.ordinal := by
    rwa [← F.value_zero, F.value_strictMono.le_iff_le] at hpos
  obtain ⟨r, hr⟩ := Int.eq_ofNat_of_zero_le hnonneg
  have hgap := F.gap_pos r
  have hsig : (F.significand r : ℚ) < 2 * F.binade := by
    exact_mod_cast F.significand_lt r
  calc F.value x.ordinal * (1 + 1 / (2 * F.binade))
      = F.magnitude r + F.significand r / (2 * F.binade) * F.gap r := by
        rw [hr, F.value_natCast, F.magnitude_eq]
        ring
    _ < F.magnitude r + 1 * F.gap r := by
        gcongr
        rwa [div_lt_one hbinade]
    _ = F.value ((r + 1 : Nat) : ℤ) := by
        rw [F.value_natCast, F.magnitude_succ, one_mul]
    _ ≤ F.value y.ordinal := by
        apply F.value_strictMono.monotone
        omega

end Grid

section Monotone

variable [NeZero F.infinityRank] {x y a : Binary F}

theorem round_le_round {p q : ℚ} (h : p ≤ q) (w z : Bool) :
    (round w p : Binary F) ≤ round z q := by
  rw [le_iff, isNaN_round, isNaN_round, ordinal_round, ordinal_round]
  exact ⟨rfl, rfl, F.nearest_mono h⟩

protected theorem sub_le_sub_right (hx : x.isFinite) (hy : y.isFinite) (ha : a.isFinite)
    (h : x ≤ y) : x - a ≤ y - a := by
  obtain ⟨w, hw⟩ := sub_eq_round hx ha
  obtain ⟨z, hz⟩ := sub_eq_round hy ha
  rw [le_iff_toRat hx hy] at h
  rw [hw, hz]
  exact round_le_round (by linarith) w z

protected theorem div_le_div_right (hx : x.isFinite) (hy : y.isFinite) (ha : a.isFinite)
    (hpos : 0 < a.toRat) (h : x ≤ y) : x / a ≤ y / a := by
  obtain ⟨w, hw⟩ := div_eq_round hx ha hpos.ne'
  obtain ⟨z, hz⟩ := div_eq_round hy ha hpos.ne'
  rw [le_iff_toRat hx hy] at h
  rw [hw, hz]
  exact round_le_round (div_le_div_of_nonneg_right h hpos.le) w z

end Monotone

section Unit

theorem two_mul_binade_single : 2 * (Format.single.binade : ℚ) = 2 ^ 24 := by
  norm_num [Format.binade_eq, Format.single]

theorem isFinite_one : (1 : Single).isFinite := by
  decide +kernel

/-- On the midpoint above one the even rank of one wins. -/
theorem round_le_one_iff {q : ℚ} {z : Bool} :
    (round z q : Single) ≤ 1 ↔ q ≤ 1 + 1 / 2 ^ 24 := by
  have hone : (1 : Single).ordinal = (1065353216 : Nat) := by decide +kernel
  have hmid : Format.single.midpoint 1065353216 = 1 + 1 / 2 ^ 24 := by decide +kernel
  have hnan : (1 : Single).isNaN = false := isNaN_of_isFinite isFinite_one
  rw [le_iff, ordinal_round, isNaN_round, hone, hnan]
  simp only [true_and]
  rcases le_or_gt 0 q with hq | hq
  · rw [Format.single.nearest_le_natCast_iff hq (by decide), hmid, le_iff_lt_or_eq]
    simp
  · have hneg := Format.single.nearest_mono hq.le
    rw [Format.nearest_zero] at hneg
    exact iff_of_true (by omega) (by norm_num; linarith)

/-- A quotient is rounded to at most one only if it is at most one. -/
theorem div_le_one_iff {x y : Single} (hx : x.isFinite) (hy : y.isFinite)
    (hpos : 0 < y.toRat) : x / y ≤ 1 ↔ x.toRat ≤ y.toRat := by
  obtain ⟨z, hz⟩ := div_eq_round hx hy hpos.ne'
  rw [hz, round_le_one_iff, div_le_iff₀ hpos]
  constructor
  · intro h
    by_contra hlt
    have hsep := toRat_separated hy hx hpos.le (not_le.1 hlt)
    rw [two_mul_binade_single] at hsep
    linarith
  · intro h
    linarith

end Unit

end Binary
end MotorSupervisor
