import MotorSupervisor.Proofs.Binary.Integer

/-!
# How far a few roundings lead

Outside the first binade a rational and its rounded value differ by at most a
factor that is close to one.  Such factors multiply along a calculation of
products and quotients, so a number that is a few roundings away from a rational is
as many of these factors away from it.

**Definitions.**
* `WithinFactor`: two rationals differ by at most a factor.
* `Format.slack`: the factor of one rounding.
* `Binary.Tracks`: a number is some roundings away from a rational.

**Results.**
* `WithinFactor.trans`, `WithinFactor.mul_right`, `WithinFactor.div_left`: factors
  along a calculation.
* `withinFactor_rounded`: the factor of one rounding.
* `Tracks.round`: one more rounding, and `Tracks.mul`, `Tracks.div`,
  `Tracks.div_left` for the operations.
-/

namespace MotorSupervisor

/-- Neither of two rationals exceeds the other by more than a factor. -/
structure WithinFactor (k p q : ℚ) : Prop where
  left_le : p ≤ k * q
  right_le : q ≤ k * p

namespace WithinFactor

variable {k l p q r c : ℚ}

theorem refl (p : ℚ) : WithinFactor 1 p p :=
  ⟨(one_mul p).ge, (one_mul p).ge⟩

theorem trans (hk : 0 ≤ k) (hl : 0 ≤ l) (h : WithinFactor k p q) (h' : WithinFactor l q r) :
    WithinFactor (k * l) p r := by
  constructor
  · calc p ≤ k * q := h.left_le
      _ ≤ k * (l * r) := mul_le_mul_of_nonneg_left h'.left_le hk
      _ = k * l * r := (mul_assoc k l r).symm
  · calc r ≤ l * q := h'.right_le
      _ ≤ l * (k * p) := mul_le_mul_of_nonneg_left h.right_le hl
      _ = k * l * p := by ring

theorem pos (hk : 0 ≤ k) (h : WithinFactor k p q) (hp : 0 < p) : 0 < q :=
  pos_of_mul_pos_right (hp.trans_le h.left_le) hk

theorem weaken (h : WithinFactor k p q) (hkl : k ≤ l) (hp : 0 ≤ p) (hq : 0 ≤ q) :
    WithinFactor l p q :=
  ⟨h.left_le.trans (mul_le_mul_of_nonneg_right hkl hq),
    h.right_le.trans (mul_le_mul_of_nonneg_right hkl hp)⟩

theorem mul_right (h : WithinFactor k p q) (hc : 0 ≤ c) : WithinFactor k (p * c) (q * c) := by
  constructor
  · rw [← mul_assoc]
    exact mul_le_mul_of_nonneg_right h.left_le hc
  · rw [← mul_assoc]
    exact mul_le_mul_of_nonneg_right h.right_le hc

theorem div_left (h : WithinFactor k p q) (hp : 0 < p) (hq : 0 < q) (hc : 0 ≤ c) :
    WithinFactor k (c / p) (c / q) := by
  constructor
  · rw [div_le_iff₀ hp, mul_assoc, div_mul_eq_mul_div, ← mul_div_assoc, le_div_iff₀ hq]
    have hmul := mul_le_mul_of_nonneg_left h.right_le hc
    linarith
  · rw [div_le_iff₀ hq, mul_assoc, div_mul_eq_mul_div, ← mul_div_assoc, le_div_iff₀ hp]
    have hmul := mul_le_mul_of_nonneg_left h.left_le hc
    linarith

end WithinFactor

namespace Format

variable (F : Format)

/-- One and the distance from one to the next number. -/
def slack : ℚ :=
  1 + 1 / F.binade

variable {F} {q : ℚ}

theorem one_le_slack : 1 ≤ F.slack := by
  have hbinade : (0 : ℚ) ≤ 1 / F.binade := by positivity
  unfold slack
  linarith

/-- Outside the first binade rounding does not go beyond a factor. -/
theorem withinFactor_rounded (hq : F.magnitude F.binade ≤ q) :
    WithinFactor F.slack q (F.rounded q) := by
  have hnonneg : 0 ≤ q := (F.magnitude_nonneg _).trans hq
  obtain ⟨hlow, hhigh⟩ := F.floorRank_spec hnonneg
  have hbinade : (0 : ℚ) < F.binade := by exact_mod_cast F.binade_pos
  have hrank : F.binade ≤ F.floorRank q := by
    have hlt := F.magnitude_strictMono.lt_iff_lt.1 (hq.trans_lt hhigh)
    omega
  -- the neighbours of the rational are one gap apart, which is a small part of them
  have hgap : F.gap (F.floorRank q) ≤ 1 / F.binade * F.magnitude (F.floorRank q) := by
    rw [one_div_mul_eq_div, le_div_iff₀' hbinade]
    exact F.mul_gap_le le_rfl hrank
  have hdown : F.magnitude (F.floorRank q) ≤ F.rounded q :=
    le_rounded (F.rounded_magnitude _) hlow
  have hup : F.rounded q ≤ F.magnitude (F.floorRank q + 1) :=
    rounded_le (F.rounded_magnitude _) hnonneg hhigh.le
  rw [magnitude_succ] at hup hhigh
  have hpart : ∀ p, F.magnitude (F.floorRank q) ≤ p →
      1 / (F.binade : ℚ) * F.magnitude (F.floorRank q) ≤ 1 / F.binade * p :=
    fun p hp => mul_le_mul_of_nonneg_left hp (by positivity)
  constructor
  · have hpart' := hpart _ hdown
    unfold slack
    linarith
  · have hpart' := hpart _ hlow
    unfold slack
    linarith

end Format

namespace Binary

variable {n : Nat} {p q : ℚ}

/-- A number is at most some roundings away from a rational. -/
structure Tracks (n : Nat) (q : ℚ) (x : Double) : Prop where
  magnitude : x.IsMagnitude
  near : WithinFactor (Format.double.slack ^ n) q x.toRat

theorem slack_pow_nonneg (n : Nat) : 0 ≤ Format.double.slack ^ n :=
  pow_nonneg (zero_le_one.trans Format.one_le_slack) n

theorem Tracks.pos {x : Double} (h : Tracks n q x) (hq : 0 < q) : 0 < x.toRat :=
  h.near.pos (slack_pow_nonneg n) hq

theorem slack_pow_le_two (hn : n ≤ 8) : Format.double.slack ^ n ≤ 2 :=
  (pow_le_pow_right₀ Format.one_le_slack hn).trans (by decide +kernel)

/-- One more rounding, in the middle of the format. -/
theorem Tracks.round (h : WithinFactor (Format.double.slack ^ n) q p) (hn : n ≤ 8)
    (hlow : 1 / 4 ≤ q) (hhigh : q ≤ 2 ^ 40) (z : Bool) : Tracks (n + 1) q (Binary.round z p) := by
  have hpow := slack_pow_le_two hn
  have hnonneg : 0 ≤ p := (h.pos (slack_pow_nonneg n) (by linarith)).le
  have hp : 1 / 8 ≤ p := by
    have hmul := mul_le_mul_of_nonneg_right hpow hnonneg
    linarith [h.left_le]
  have hp' : p ≤ 2 ^ 41 := by
    have hmul := mul_le_mul_of_nonneg_right hpow (show 0 ≤ q by linarith)
    linarith [h.right_le]
  have hnormal : Format.double.magnitude Format.double.binade ≤ p :=
    (show _ ≤ (1 / 8 : ℚ) by decide +kernel).trans hp
  have hfits : Format.double.rounded p < Format.double.overflow := by
    have htwo : Format.double.rounded (2 ^ 41) = 2 ^ 41 := by decide +kernel
    refine (Format.rounded_le htwo hnonneg hp').trans_lt ?_
    rw [Format.overflow_double]
    exact pow_lt_pow_right₀ (by norm_num) (by norm_num)
  obtain ⟨hmagnitude, hvalue⟩ := round_spec hnonneg hfits z
  refine ⟨hmagnitude, ?_⟩
  rw [hvalue, pow_succ]
  exact h.trans (slack_pow_nonneg n) (zero_le_one.trans Format.one_le_slack)
    (Format.withinFactor_rounded hnormal)

variable {x y : Double}

theorem tracks_self (hx : x.IsMagnitude) : Tracks 0 x.toRat x := by
  refine ⟨hx, ?_⟩
  rw [pow_zero]
  exact WithinFactor.refl _

theorem Tracks.mul (h : Tracks n q x) (hy : y.IsMagnitude) (hn : n ≤ 8)
    (hlow : 1 / 4 ≤ q * y.toRat) (hhigh : q * y.toRat ≤ 2 ^ 40) :
    Tracks (n + 1) (q * y.toRat) (x * y) := by
  obtain ⟨z, hz⟩ := mul_eq_round h.magnitude.finite hy.finite
  rw [hz]
  exact Tracks.round (h.near.mul_right hy.nonneg) hn hlow hhigh z

theorem Tracks.div (h : Tracks n q x) (hy : y.isFinite) (hpos : 0 < y.toRat) (hn : n ≤ 8)
    (hlow : 1 / 4 ≤ q / y.toRat) (hhigh : q / y.toRat ≤ 2 ^ 40) :
    Tracks (n + 1) (q / y.toRat) (x / y) := by
  obtain ⟨z, hz⟩ := div_eq_round h.magnitude.finite hy hpos.ne'
  have hnear := h.near.mul_right (inv_nonneg.2 hpos.le)
  rw [← div_eq_mul_inv, ← div_eq_mul_inv] at hnear
  rw [hz]
  exact Tracks.round hnear hn hlow hhigh z

/-- Dividing by a number that is some roundings away. -/
theorem Tracks.div_left (h : Tracks n q x) (hq : 0 < q) (hy : y.IsMagnitude) (hn : n ≤ 8)
    (hlow : 1 / 4 ≤ y.toRat / q) (hhigh : y.toRat / q ≤ 2 ^ 40) :
    Tracks (n + 1) (y.toRat / q) (y / x) := by
  obtain ⟨z, hz⟩ := div_eq_round hy.finite h.magnitude.finite (h.pos hq).ne'
  rw [hz]
  exact Tracks.round (h.near.div_left hq (h.pos hq) hy.nonneg) hn hlow hhigh z

end Binary
end MotorSupervisor
