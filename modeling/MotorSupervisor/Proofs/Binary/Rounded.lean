import MotorSupervisor.Proofs.Binary.Arithmetic

/-!
# Rounding as a map on rationals

`Format.rounded` takes a rational that is not negative to the nearest
magnitude, as if the exponents had no end.  Laws that hold for every size of
the operands are stated for this map; the operations on numbers agree with it
until a result overflows.

**Results.**
* `rounded_two_pow_mul_add`: rounding a sum commutes with powers of two.
* `rounded_add_of_small`: a small term is lost beside a large one.
* `rounded_le_two_mul_sub`: no magnitude is nearer than the rounded one.
* `rounded_reflect_le`: the mirror image of a rational at its rounded value is
  not rounded past that value.
* `rounded_mul_div_mul_le`: multiplying, dividing and multiplying again by the
  same number leads no further up than multiplying once.
* `add_spec`, `mul_spec`, `div_spec`: operations without overflow.
-/

namespace MotorSupervisor

namespace Format

variable (F : Format)

/-- The nearest magnitude to a rational that is not negative. -/
def rounded (q : ℚ) : ℚ :=
  F.magnitude (F.nearestRank q)

/-- The least value that is too large for the format. -/
def overflow : ℚ :=
  F.magnitude F.infinityRank

variable {F} {p q a : ℚ} {r : Nat}

theorem rounded_nonneg (q : ℚ) : 0 ≤ F.rounded q :=
  F.magnitude_nonneg _

theorem rounded_mono (hp : 0 ≤ p) (h : p ≤ q) : F.rounded p ≤ F.rounded q :=
  F.magnitude_strictMono.monotone (F.nearestRank_mono hp h)

theorem rounded_magnitude (r : Nat) : F.rounded (F.magnitude r) = F.magnitude r := by
  rw [rounded, nearestRank_magnitude]

theorem rounded_rounded (q : ℚ) : F.rounded (F.rounded q) = F.rounded q :=
  F.rounded_magnitude _

theorem nonneg_of_rounded (hp : F.rounded p = p) : 0 ≤ p :=
  (F.rounded_nonneg p).trans_eq hp

theorem le_rounded (hp : F.rounded p = p) (h : p ≤ q) : p ≤ F.rounded q :=
  hp.symm.trans_le (rounded_mono (nonneg_of_rounded hp) h)

theorem rounded_le (hp : F.rounded p = p) (hq : 0 ≤ q) (h : q ≤ p) : F.rounded q ≤ p :=
  (rounded_mono hq h).trans_eq hp

theorem midpoint_eq_half (r : Nat) :
    F.midpoint r = (F.magnitude r + F.magnitude (r + 1)) / 2 := by
  rw [midpoint_eq, magnitude_succ]
  ring

theorem gap_mono : Monotone F.gap := by
  intro r s h
  have hshift : F.shift r ≤ F.shift s :=
    Nat.sub_le_sub_right (Nat.div_le_div_right h) 1
  exact zpow_le_zpow_right₀ (by norm_num) (by omega)

/-- What is not rounded to a rank or below it lies above the midpoint, or on the
midpoint of an odd rank. -/
theorem midpoint_le_of_lt_nearestRank (hq : 0 ≤ q) (h : r < F.nearestRank q) :
    F.midpoint r < q ∨ (F.midpoint r = q ∧ r % 2 ≠ 0) := by
  have hle := (F.nearestRank_le_iff hq r).not.1 (not_le.2 h)
  rw [not_or, not_lt, not_and] at hle
  rcases hle.1.lt_or_eq with hlt | heq
  · exact Or.inl hlt
  · exact Or.inr ⟨heq, hle.2 heq.symm⟩

section Scaling

theorem magnitude_add_mul_binade (hr : F.binade ≤ r) (k : Nat) :
    F.magnitude (r + k * F.binade) = 2 ^ k * F.magnitude r := by
  have hlead : F.binade ≤ F.significand r := by
    rw [significand, if_neg (not_lt.2 hr)]
    omega
  have hrank : r + k * F.binade = (F.shift r + k) * F.binade + F.significand r := by
    conv_lhs => rw [← F.parts_eq r]
    ring
  rw [hrank, magnitude_parts (Or.inr hlead) (F.significand_lt r).le, magnitude_eq, gap]
  push_cast
  rw [← add_assoc, zpow_add₀ (by norm_num), zpow_natCast]
  ring

/-- Below the end of the second binade all magnitudes are one gap apart. -/
theorem magnitude_of_le (hr : r ≤ 2 * F.binade) : F.magnitude r = r * 2 ^ F.leastExponent := by
  have hparts : F.magnitude (0 * F.binade + r) = r * 2 ^ (F.leastExponent + (0 : Nat)) :=
    magnitude_parts (Or.inl rfl) hr
  rwa [Nat.zero_mul, Nat.zero_add, Nat.cast_zero, add_zero] at hparts

theorem rounded_two_mul (hp : F.rounded p = p) : F.rounded (2 * p) = 2 * p := by
  obtain ⟨r, rfl⟩ : ∃ r, F.magnitude r = p := ⟨_, hp⟩
  obtain ⟨s, hs⟩ : ∃ s, F.magnitude s = 2 * F.magnitude r := by
    rcases le_or_gt F.binade r with hr | hr
    · exact ⟨r + 1 * F.binade, by rw [magnitude_add_mul_binade hr, pow_one]⟩
    · refine ⟨2 * r, ?_⟩
      rw [magnitude_of_le (by omega), magnitude_of_le (by omega)]
      push_cast
      ring
  rw [← hs, rounded_magnitude]

/-- Magnitudes may be multiplied by powers of two. -/
theorem rounded_two_pow_mul (hp : F.rounded p = p) (k : Nat) :
    F.rounded (2 ^ k * p) = 2 ^ k * p := by
  induction k with
  | zero => rwa [pow_zero, one_mul]
  | succ k ih =>
      have hdouble := rounded_two_mul ih
      rwa [← mul_assoc, ← pow_succ'] at hdouble

theorem rounded_two_pow (hone : F.rounded 1 = 1) (k : Nat) : F.rounded (2 ^ k) = 2 ^ k := by
  have hpow := rounded_two_pow_mul hone k
  rwa [mul_one] at hpow

/-- A sum of two magnitudes that ends in the first binade is a magnitude. -/
theorem rounded_add_of_lt (hp : F.rounded p = p) (hq : F.rounded q = q)
    (h : p + q < F.magnitude F.binade) : F.rounded (p + q) = p + q := by
  obtain ⟨r, rfl⟩ : ∃ r, F.magnitude r = p := ⟨_, hp⟩
  obtain ⟨s, rfl⟩ : ∃ s, F.magnitude s = q := ⟨_, hq⟩
  have hr : r < F.binade := by
    rw [← F.magnitude_strictMono.lt_iff_lt]
    linarith [F.magnitude_nonneg s]
  have hs : s < F.binade := by
    rw [← F.magnitude_strictMono.lt_iff_lt]
    linarith [F.magnitude_nonneg r]
  have hsum : F.magnitude r + F.magnitude s = F.magnitude (r + s) := by
    rw [magnitude_of_le (by omega), magnitude_of_le (by omega), magnitude_of_le (by omega)]
    push_cast
    ring
  rw [hsum, rounded_magnitude]

theorem nearestRank_two_pow_mul (heven : F.binade % 2 = 0) (hq : F.magnitude F.binade ≤ q)
    (k : Nat) : F.nearestRank (2 ^ k * q) = F.nearestRank q + k * F.binade := by
  have hnonneg : 0 ≤ q := (F.magnitude_nonneg _).trans hq
  have hscaled : 0 ≤ 2 ^ k * q := by positivity
  have hpow : (0 : ℚ) < 2 ^ k := by positivity
  -- every step of the rounding is moved by whole binades
  have hstep : ∀ r, F.binade ≤ r →
      (F.nearestRank (2 ^ k * q) ≤ r + k * F.binade ↔ F.nearestRank q ≤ r) := by
    intro r hr
    have hparity : (r + k * F.binade) % 2 = 0 ↔ r % 2 = 0 := by
      rw [Nat.add_mod, Nat.mul_mod, heven]
      simp
    have hmidpoint : F.midpoint (r + k * F.binade) = 2 ^ k * F.midpoint r := by
      have hnext : r + k * F.binade + 1 = (r + 1) + k * F.binade := by ring
      rw [midpoint_eq_half, midpoint_eq_half, hnext, magnitude_add_mul_binade hr,
        magnitude_add_mul_binade (by omega)]
      ring
    rw [nearestRank_le_iff F hscaled, nearestRank_le_iff F hnonneg, hmidpoint, hparity,
      mul_lt_mul_iff_right₀ hpow, mul_right_inj' hpow.ne']
  have hlow := F.nearestRank_mono (F.magnitude_nonneg _) hq
  rw [nearestRank_magnitude] at hlow
  apply le_antisymm
  · exact (hstep _ hlow).2 le_rfl
  · by_contra hlt
    rcases hlow.lt_or_eq with hlow | hlow
    · have hle := (hstep (F.nearestRank q - 1) (by omega)).1 (by omega)
      omega
    · have hleast : F.magnitude (F.binade + k * F.binade) ≤ 2 ^ k * q := by
        rw [magnitude_add_mul_binade le_rfl]
        exact mul_le_mul_of_nonneg_left hq hpow.le
      have hmono := F.nearestRank_mono (F.magnitude_nonneg _) hleast
      rw [nearestRank_magnitude] at hmono
      omega

/-- Outside the first binade rounding commutes with powers of two. -/
theorem rounded_two_pow_mul_of_le (heven : F.binade % 2 = 0) (hq : F.magnitude F.binade ≤ q)
    (k : Nat) : F.rounded (2 ^ k * q) = 2 ^ k * F.rounded q := by
  have hlow := F.nearestRank_mono (F.magnitude_nonneg _) hq
  rw [nearestRank_magnitude] at hlow
  rw [rounded, rounded, nearestRank_two_pow_mul heven hq, magnitude_add_mul_binade hlow]

/-- Rounding a sum of magnitudes commutes with powers of two. -/
theorem rounded_two_pow_mul_add (heven : F.binade % 2 = 0) (hp : F.rounded p = p)
    (hq : F.rounded q = q) (k : Nat) :
    F.rounded (2 ^ k * (p + q)) = 2 ^ k * F.rounded (p + q) := by
  rcases lt_or_ge (p + q) (F.magnitude F.binade) with hsmall | hlarge
  · have hsum := rounded_add_of_lt hp hq hsmall
    rw [hsum, rounded_two_pow_mul hsum]
  · exact rounded_two_pow_mul_of_le heven hlarge k

end Scaling

/-- A small term is lost beside a large one. -/
theorem rounded_add_of_small (ha : 0 ≤ a) (hp : F.rounded p = p) (h : 4 * F.binade * a ≤ p) :
    F.rounded (p + a) = p := by
  obtain ⟨r, rfl⟩ : ∃ r, F.magnitude r = p := ⟨_, hp⟩
  have hbinade : (0 : ℚ) < F.binade := by exact_mod_cast F.binade_pos
  have hgap := F.gap_pos r
  have hmagnitude : F.magnitude r < 2 * F.binade * F.gap r := by
    rw [magnitude_eq]
    exact mul_lt_mul_of_pos_right (by exact_mod_cast F.significand_lt r) hgap
  have hsmall : a < F.gap r / 2 := by
    by_contra hlarge
    have hproduct := mul_le_mul_of_nonneg_left (not_lt.1 hlarge) hbinade.le
    linarith
  have hnonneg := F.magnitude_nonneg r
  apply le_antisymm
  · apply F.magnitude_strictMono.monotone
    rw [nearestRank_le_iff F (by linarith), midpoint_eq]
    exact Or.inl (by linarith)
  · exact le_rounded hp (by linarith)

/-- No magnitude below a rational is nearer to it than the rounded one. -/
theorem rounded_le_two_mul_sub (hp : F.rounded p = p) (h : p ≤ q) :
    F.rounded q ≤ 2 * q - p := by
  obtain ⟨r, rfl⟩ : ∃ r, F.magnitude r = p := ⟨_, hp⟩
  have hq := (F.magnitude_nonneg r).trans h
  have hmono := F.nearestRank_mono (F.magnitude_nonneg r) h
  rw [nearestRank_magnitude] at hmono
  rcases hmono.lt_or_eq with hlt | heq
  · obtain ⟨s, hs⟩ : ∃ s, F.nearestRank q = s + 1 := ⟨F.nearestRank q - 1, by omega⟩
    have hmid : F.midpoint s ≤ q :=
      (midpoint_le_of_lt_nearestRank hq (by omega)).elim le_of_lt fun hmid => hmid.1.le
    have hbelow : F.magnitude r ≤ F.magnitude s := F.magnitude_strictMono.monotone (by omega)
    rw [midpoint_eq_half] at hmid
    rw [rounded, hs]
    linarith
  · rw [rounded, ← heq]
    linarith

/-- A rational that is rounded up, mirrored at its rounded value, is rounded back
to it or below. -/
theorem rounded_reflect_le (hq : 0 ≤ q) (h : q ≤ F.rounded q) :
    F.rounded (2 * F.rounded q - q) ≤ F.rounded q := by
  have hnonneg : 0 ≤ 2 * F.rounded q - q := by linarith
  rcases hr : F.nearestRank q with _ | r
  · have hzero : F.rounded q = 0 := by rw [rounded, hr, magnitude_zero]
    rw [hzero] at h ⊢
    rw [le_antisymm h hq, mul_zero, sub_zero, rounded, nearestRank_zero, magnitude_zero]
  · have hvalue : F.rounded q = F.magnitude r + F.gap r := by rw [rounded, hr, magnitude_succ]
    have hgap := F.gap_mono (Nat.le_add_right r 1)
    apply F.magnitude_strictMono.monotone
    rw [nearestRank_le_iff F hnonneg, hr, midpoint_eq, magnitude_succ, ← hvalue]
    rcases midpoint_le_of_lt_nearestRank hq (show r < F.nearestRank q by omega)
      with hmid | ⟨hmid, hodd⟩
    · rw [midpoint_eq] at hmid
      exact Or.inl (by linarith)
    · rw [midpoint_eq] at hmid
      rcases hgap.lt_or_eq with hgap | hgap
      · exact Or.inl (by linarith)
      · exact Or.inr ⟨by linarith, by omega⟩

/-- Multiplying, dividing and multiplying again by the same number leads no
further up than multiplying once. -/
theorem rounded_mul_div_mul_le (ha : 0 < a) (hp : F.rounded p = p) :
    F.rounded (a * F.rounded (F.rounded (a * p) / a)) ≤ F.rounded (a * p) := by
  have hproduct : 0 ≤ a * p := mul_nonneg ha.le (nonneg_of_rounded hp)
  have hquotient : 0 ≤ F.rounded (a * p) / a := div_nonneg (F.rounded_nonneg _) ha.le
  have hback : 0 ≤ a * F.rounded (F.rounded (a * p) / a) :=
    mul_nonneg ha.le (F.rounded_nonneg _)
  rcases le_or_gt (F.rounded (a * p)) (a * p) with hdown | hup
  · have hle : F.rounded (F.rounded (a * p) / a) ≤ p :=
      rounded_le hp hquotient ((div_le_iff₀' ha).2 hdown)
    exact rounded_mono hback (mul_le_mul_of_nonneg_left hle ha.le)
  · have hnear := rounded_le_two_mul_sub hp ((le_div_iff₀' ha).2 hup.le)
    have hmirror : a * F.rounded (F.rounded (a * p) / a) ≤ 2 * F.rounded (a * p) - a * p := by
      have hscaled := mul_le_mul_of_nonneg_left hnear ha.le
      rwa [mul_sub, mul_left_comm, mul_div_cancel₀ _ ha.ne'] at hscaled
    exact (rounded_mono hback hmirror).trans (rounded_reflect_le hproduct hup.le)

section Single

theorem overflow_single : single.overflow = 2 ^ 128 := by
  decide +kernel

theorem even_binade_single : single.binade % 2 = 0 := by
  decide

theorem rounded_one_single : single.rounded 1 = 1 := by
  decide +kernel

theorem rounded_two_pow_single (k : Nat) : single.rounded (2 ^ k) = 2 ^ k :=
  rounded_two_pow rounded_one_single k

end Single

end Format

namespace Binary

variable {F : Format} {x y : Binary F} {q : ℚ}

/-- A number that is not negative. -/
structure IsMagnitude (x : Binary F) : Prop where
  finite : x.isFinite
  nonneg : 0 ≤ x.toRat

theorem IsMagnitude.rounded (h : x.IsMagnitude) : F.rounded x.toRat = x.toRat := by
  obtain ⟨hx, hnonneg⟩ := h
  rw [toRat_eq_value hx, ← F.value_zero, F.value_strictMono.le_iff_le] at hnonneg
  obtain ⟨r, hr⟩ := Int.eq_ofNat_of_zero_le hnonneg
  rw [toRat_eq_value hx, hr, F.value_natCast, F.rounded_magnitude]

theorem isFinite_round_iff (hq : 0 ≤ q) (z : Bool) :
    (round z q : Binary F).isFinite ↔ F.rounded q < F.overflow := by
  rw [isFinite_iff (isNaN_round z q), ordinal_round, F.nearest_of_nonneg hq, Int.natAbs_natCast,
    Format.rounded, Format.overflow, F.magnitude_strictMono.lt_iff_lt]
  omega

theorem round_spec (hq : 0 ≤ q) (h : F.rounded q < F.overflow) (z : Bool) :
    (round z q : Binary F).IsMagnitude ∧ (round z q : Binary F).toRat = F.rounded q := by
  have hfin := (isFinite_round_iff hq z).2 h
  rw [Format.rounded, Format.overflow, F.magnitude_strictMono.lt_iff_lt] at h
  have hvalue : (round z q : Binary F).toRat = F.rounded q := by
    rw [toRat_eq_value hfin, ordinal_round, F.nearest_of_nonneg hq, min_eq_left h.le,
      F.value_natCast, Format.rounded]
  exact ⟨⟨hfin, (F.rounded_nonneg q).trans_eq hvalue.symm⟩, hvalue⟩

/-- What is not negative and at most a magnitude is rounded so. -/
theorem round_mem_of_le {p : ℚ} (hp : F.rounded p = p) (hmax : p < F.overflow) (hq : 0 ≤ q)
    (h : q ≤ p) (z : Bool) :
    (round z q : Binary F).IsMagnitude ∧ (round z q : Binary F).toRat ≤ p := by
  have hle := Format.rounded_le hp hq h
  obtain ⟨hmagnitude, hvalue⟩ := round_spec hq (hle.trans_lt hmax) z
  exact ⟨hmagnitude, hvalue.trans_le hle⟩

theorem toFormat_eq_round {G : Format} (hx : x.isFinite) :
    ∃ z, x.toFormat G = round z x.toRat := by
  cases x with
  | nan => cases hx
  | infinity => cases hx
  | finite s rank => exact ⟨s, rfl⟩

section Operations

variable (hx : x.IsMagnitude) (hy : y.IsMagnitude)
include hx hy

theorem add_spec (h : F.rounded (x.toRat + y.toRat) < F.overflow) :
    (x + y).IsMagnitude ∧ (x + y).toRat = F.rounded (x.toRat + y.toRat) := by
  obtain ⟨z, hz⟩ := add_eq_round hx.finite hy.finite
  rw [hz]
  exact round_spec (add_nonneg hx.nonneg hy.nonneg) h z

theorem mul_spec (h : F.rounded (x.toRat * y.toRat) < F.overflow) :
    (x * y).IsMagnitude ∧ (x * y).toRat = F.rounded (x.toRat * y.toRat) := by
  obtain ⟨z, hz⟩ := mul_eq_round hx.finite hy.finite
  rw [hz]
  exact round_spec (mul_nonneg hx.nonneg hy.nonneg) h z

theorem isFinite_mul_iff :
    (x * y).isFinite ↔ F.rounded (x.toRat * y.toRat) < F.overflow := by
  obtain ⟨z, hz⟩ := mul_eq_round hx.finite hy.finite
  rw [hz, isFinite_round_iff (mul_nonneg hx.nonneg hy.nonneg)]

theorem div_spec (hpos : 0 < y.toRat) (h : F.rounded (x.toRat / y.toRat) < F.overflow) :
    (x / y).IsMagnitude ∧ (x / y).toRat = F.rounded (x.toRat / y.toRat) := by
  obtain ⟨z, hz⟩ := div_eq_round hx.finite hy.finite hpos.ne'
  rw [hz]
  exact round_spec (div_nonneg hx.nonneg hpos.le) h z

end Operations

end Binary
end MotorSupervisor
