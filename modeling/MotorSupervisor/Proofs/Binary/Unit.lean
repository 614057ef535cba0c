import MotorSupervisor.Proofs.Binary.Arithmetic

/-!
# The unit interval

Duty cycles are numbers from `0` to `1`.  A sum or a quotient is rounded into
this interval exactly when both operands are numbers and the exact result lies
in it, give or take half of the last digit above one.

**Results.**
* `inUnit_iff`, `isZero_iff`: the interval and its lower end by ordinals.
* `inUnit_add_iff`: sums in the unit interval.
* `inUnit_div_iff`: quotients in the unit interval.
-/

namespace MotorSupervisor
namespace Binary

variable {x y : Single}

/-- A number from `0` to `1`. -/
def InUnit (x : Single) : Prop :=
  0 ≤ x ∧ x ≤ 1

instance (x : Single) : Decidable x.InUnit :=
  inferInstanceAs (Decidable (_ ∧ _))

/-- One of the two zeros. -/
def IsZero (x : Single) : Prop :=
  0 ≤ x ∧ x ≤ 0

instance (x : Single) : Decidable x.IsZero :=
  inferInstanceAs (Decidable (_ ∧ _))

theorem isNaN_one : (1 : Single).isNaN = false :=
  isNaN_round false 1

theorem ordinal_one_pos : 0 < (1 : Single).ordinal := by
  decide +kernel

theorem inUnit_iff :
    x.InUnit ↔ x.isNaN = false ∧ 0 ≤ x.ordinal ∧ x.ordinal ≤ (1 : Single).ordinal := by
  rw [InUnit, le_iff, le_iff]
  simp only [isNaN_zero, isNaN_one, ordinal_zero]
  tauto

theorem isZero_iff : x.IsZero ↔ x.isNaN = false ∧ x.ordinal = 0 := by
  rw [IsZero, le_iff, le_iff]
  simp only [isNaN_zero, ordinal_zero, true_and]
  constructor
  · rintro ⟨⟨hnan, hlow⟩, -, hhigh⟩
    exact ⟨hnan, le_antisymm hhigh hlow⟩
  · rintro ⟨hnan, hzero⟩
    exact ⟨⟨hnan, hzero.ge⟩, hnan, hzero.le⟩

theorem pos_iff : 0 < x ↔ x.isNaN = false ∧ 0 < x.ordinal := by
  rw [lt_iff]
  simp

theorem IsZero.not_pos (h : x.IsZero) : ¬ 0 < x := by
  rw [pos_iff, (isZero_iff.1 h).2]
  simp

theorem IsZero.lt_iff_neg (h : y.IsZero) : x < y ↔ x < 0 := by
  obtain ⟨hnan, hzero⟩ := isZero_iff.1 h
  rw [lt_iff, lt_iff, hnan, hzero, ordinal_zero, isNaN_zero]

theorem IsZero.le_iff_nonpos (h : y.IsZero) : x ≤ y ↔ x ≤ 0 := by
  obtain ⟨hnan, hzero⟩ := isZero_iff.1 h
  rw [le_iff, le_iff, hnan, hzero, ordinal_zero, isNaN_zero]

theorem isZero_of_not_pos (h : 0 ≤ x) (hpos : ¬ 0 < x) : x.IsZero := by
  rw [le_iff, ordinal_zero] at h
  rw [pos_iff, not_and, not_lt] at hpos
  exact isZero_iff.2 ⟨h.2.1, le_antisymm (hpos h.2.1) h.2.2⟩

theorem InUnit.isNaN (h : x.InUnit) : x.isNaN = false :=
  (inUnit_iff.1 h).1

theorem InUnit.isZero_iff_not_pos (h : x.InUnit) : x.IsZero ↔ ¬ 0 < x :=
  ⟨IsZero.not_pos, isZero_of_not_pos h.1⟩

theorem inUnit_zero : InUnit 0 :=
  inUnit_iff.2 ⟨isNaN_zero, ordinal_zero.ge, by rw [ordinal_zero]; exact ordinal_one_pos.le⟩

theorem inUnit_one : InUnit 1 :=
  inUnit_iff.2 ⟨isNaN_one, ordinal_one_pos.le, le_rfl⟩

theorem isZero_zero : IsZero 0 :=
  isZero_iff.2 ⟨isNaN_zero, ordinal_zero⟩

theorem zero_mem : (0 : Single).isFinite ∧ (0 : Single).toRat = 0 := by
  have hfinite : (0 : Single).isFinite := by
    rw [isFinite_iff isNaN_zero, ordinal_zero]
    exact Nat.pos_of_neZero _
  rw [toRat_eq_value hfinite, ordinal_zero, Format.value_zero]
  exact ⟨hfinite, rfl⟩

theorem one_mem : (1 : Single).isFinite ∧ (1 : Single).toRat = 1 := by
  decide +kernel

theorem inUnit_iff_toRat (hx : x.isFinite) : x.InUnit ↔ 0 ≤ x.toRat ∧ x.toRat ≤ 1 := by
  rw [InUnit, le_iff_toRat zero_mem.1 hx, le_iff_toRat hx one_mem.1, zero_mem.2, one_mem.2]

theorem InUnit.isFinite (h : x.InUnit) : x.isFinite := by
  obtain ⟨hnan, hlow, hhigh⟩ := inUnit_iff.1 h
  have hone := (isFinite_iff isNaN_one).1 isFinite_one
  rw [isFinite_iff hnan]
  omega

/-- Whatever is a number is clamped into the unit interval. -/
theorem inUnit_clamp (h : x.isNaN = false) : (x.clamp 0 1).InUnit := by
  have hone := ordinal_one_pos
  unfold clamp
  split_ifs with hlow hhigh
  · exact inUnit_zero
  · exact inUnit_iff.2 ⟨isNaN_one, hone.le, le_rfl⟩
  · rw [lt_iff] at hlow hhigh
    simp only [h, isNaN_zero, isNaN_one, ordinal_zero, true_and, not_lt] at hlow hhigh
    exact inUnit_iff.2 ⟨h, hlow, hhigh⟩

theorem isFinite_of_add (h : (x + y).isFinite) : x.isFinite ∧ y.isFinite := by
  have hadd : (add x y).isFinite := h
  cases x with
  | nan => cases hadd
  | infinity s =>
      cases y with
      | nan => cases hadd
      | infinity t =>
          rw [add] at hadd
          split at hadd <;> cases hadd
      | finite t rank => cases hadd
  | finite s rank =>
      cases y with
      | nan => cases hadd
      | infinity t => cases hadd
      | finite t other => exact ⟨rfl, rfl⟩

theorem isFinite_of_mul (h : (x * y).isFinite) : x.isFinite ∧ y.isFinite := by
  have hmul : (mul x y).isFinite := h
  cases x with
  | nan => cases hmul
  | infinity s =>
      cases y with
      | nan => cases hmul
      | infinity t => cases hmul
      | finite t rank =>
          rw [mul] at hmul
          split at hmul <;> cases hmul
  | finite s rank =>
      cases y with
      | nan => cases hmul
      | infinity t =>
          rw [mul] at hmul
          split at hmul <;> cases hmul
      | finite t other => exact ⟨rfl, rfl⟩

theorem isFinite_of_div (h : (x / y).isFinite) : x.isFinite := by
  have hdiv : (div x y).isFinite := h
  cases x with
  | nan => cases y <;> cases hdiv
  | infinity s => cases y <;> cases hdiv
  | finite s rank => rfl

/-- A sum is rounded into the unit interval. -/
theorem inUnit_add_iff :
    (x + y).InUnit ↔ x.isFinite ∧ y.isFinite ∧ 0 ≤ x.toRat + y.toRat ∧
      x.toRat + y.toRat ≤ 1 + 1 / 2 ^ 24 := by
  constructor
  · intro h
    obtain ⟨hx, hy⟩ := isFinite_of_add h.isFinite
    obtain ⟨z, hz⟩ := add_eq_round hx hy
    refine ⟨hx, hy, (zero_le_add_iff hx hy).1 h.1, ?_⟩
    rw [← round_le_one_iff (z := z), ← hz]
    exact h.2
  · rintro ⟨hx, hy, hlow, hhigh⟩
    obtain ⟨z, hz⟩ := add_eq_round hx hy
    refine ⟨(zero_le_add_iff hx hy).2 hlow, ?_⟩
    rw [hz, round_le_one_iff]
    exact hhigh

theorem toRat_pos_of_pos (hx : 0 < x) (hfin : x.isFinite) : 0 < x.toRat := by
  rw [lt_iff_toRat zero_mem.1 hfin, zero_mem.2] at hx
  exact hx

theorem inUnit_div_iff_of_isFinite (hx : 0 < x) (hxfin : x.isFinite) (hyfin : y.isFinite)
    (hy : 0 < y.toRat) : (x / y).InUnit ↔ x ≤ y := by
  obtain ⟨z, hz⟩ := div_eq_round hxfin hyfin hy.ne'
  have hnonneg : 0 ≤ x / y := by
    have hquotient := div_nonneg (toRat_pos_of_pos hx hxfin).le hy.le
    rw [hz, zero_le_round_iff, midpoint_zero]
    refine le_trans ?_ hquotient
    rw [neg_nonpos]
    positivity
  rw [InUnit, div_le_one_iff hxfin hyfin hy, le_iff_toRat hxfin hyfin]
  exact and_iff_right hnonneg

/-- A quotient of a positive number by one that is not negative is rounded
into the unit interval. -/
theorem inUnit_div_iff (hx : 0 < x) (hy : ¬ y < 0) :
    (x / y).InUnit ↔ x.isFinite ∧ x ≤ y := by
  cases x with
  | nan => cases hx
  | infinity s =>
      exact iff_of_false (fun h => nomatch isFinite_of_div h.isFinite) (by simp [isFinite])
  | finite s rank =>
      cases y with
      | nan =>
          refine iff_of_false (fun h => ?_) (fun h => ?_)
          · cases h.isFinite
          · cases h.2
      | infinity t =>
          obtain rfl := not_neg_infinity.1 hy
          refine iff_of_true ?_ ⟨rfl, rfl⟩
          show (round (s ^^ false) 0 : Single).InUnit
          rw [inUnit_iff, isNaN_round, ordinal_round, Format.nearest_zero]
          exact ⟨rfl, le_rfl, ordinal_one_pos.le⟩
      | finite t other =>
          have hpos := toRat_pos_of_pos hx rfl
          rcases (not_neg_finite.1 hy).lt_or_eq with hlt | hzero
          · rw [inUnit_div_iff_of_isFinite hx rfl rfl hlt]
            exact (and_iff_right rfl).symm
          · refine iff_of_false (fun h => ?_) (fun h => ?_)
            · have hother : other.val = 0 := by
                rw [toRat_finite, ← Format.single.value_zero,
                  Format.single.value_strictMono.injective.eq_iff] at hzero
                rw [ordinal_finite] at hzero
                split at hzero <;> omega
              have hdiv : (div (finite s rank) (finite t other)).isFinite := h.isFinite
              rw [div, if_pos hother, if_neg (rank_ne_zero hx)] at hdiv
              cases hdiv
            · have hle := (le_iff_toRat rfl rfl).1 h.2
              exact absurd (hpos.trans_le hle) (by rw [← hzero]; exact lt_irrefl _)

/-- A quotient of a positive number is rounded to zero only if the divisor is
`2 ^ 150` times as large. -/
theorem div_le_zero_iff (hx : 0 < x) (hyfin : y.isFinite) (hy : 0 < y) :
    x / y ≤ 0 ↔ x.isFinite ∧ 2 ^ 150 * x.toRat ≤ y.toRat := by
  have hypos := toRat_pos_of_pos hy hyfin
  cases x with
  | nan => cases hx
  | infinity s =>
      obtain rfl := not_neg_infinity.1 (not_neg_of_pos hx)
      refine iff_of_false (fun h => ?_) (by simp [isFinite])
      cases y with
      | nan => cases hyfin
      | infinity t => cases hyfin
      | finite t other =>
          obtain rfl := sign_of_not_neg (not_neg_of_pos hy) (rank_ne_zero hy)
          have hle : (infinity false : Single) ≤ 0 := h
          rw [le_iff, ordinal_zero] at hle
          exact absurd hle.2.2 (by decide)
  | finite s rank =>
      obtain ⟨z, hz⟩ := div_eq_round (x := finite s rank) rfl hyfin hypos.ne'
      have hmid : Format.single.midpoint 0 = 1 / 2 ^ 150 := by decide +kernel
      rw [hz, round_le_zero_iff, hmid, div_le_div_iff₀ hypos (by positivity), one_mul, mul_comm]
      exact (and_iff_right rfl).symm

end Binary
end MotorSupervisor
