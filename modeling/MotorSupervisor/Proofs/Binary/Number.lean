import MotorSupervisor.Proofs.Binary.Integer
import MotorSupervisor.Proofs.Binary.Neighbour
import MotorSupervisor.Proofs.Binary.Unit

/-!
# Results that are numbers

An operation whose result is a number had numbers for operands.  The other way
round only opposite infinities, and infinities times zero, are in the way.

**Results.**
* `isNaN_of_add`, `isNaN_of_mul`: the operands of a number.
* `isFinite_of_mul_zero`, `isFinite_of_zero_mul`: what times zero is a number.
* `isNaN_sub`, `isNaN_mul`, `isFinite_mul_of_inUnit`: results on finite operands.
* `mul_mem_of_le`: products below one that fits.
* `isFinite_of_lt`, `div_le_zero`, `add_le_left`: infinities in order.
-/

namespace MotorSupervisor
namespace Binary

section Operands

variable {F : Format} {x y : Binary F}

/-- The operands of an operation that not-a-number absorbs. -/
theorem isNaN_of_absorbing {f : Binary F → Binary F → Binary F} (hleft : ∀ y, f nan y = nan)
    (hright : ∀ x, f x nan = nan) (h : (f x y).isNaN = false) :
    x.isNaN = false ∧ y.isNaN = false := by
  constructor
  · cases x with
    | nan => rwa [hleft] at h
    | infinity => rfl
    | finite => rfl
  · cases y with
    | nan => rwa [hright] at h
    | infinity => rfl
    | finite => rfl

theorem isNaN_of_add (h : (x + y).isNaN = false) : x.isNaN = false ∧ y.isNaN = false :=
  isNaN_of_absorbing (f := add) (fun _ => rfl) (fun x => by cases x <;> rfl) h

theorem isNaN_of_sub (h : (x - y).isNaN = false) : x.isNaN = false ∧ y.isNaN = false :=
  isNaN_of_absorbing (f := sub) (fun _ => rfl) (fun x => by cases x <;> rfl) h

theorem isNaN_of_mul (h : (x * y).isNaN = false) : x.isNaN = false ∧ y.isNaN = false :=
  isNaN_of_absorbing (f := mul) (fun _ => rfl) (fun x => by cases x <;> rfl) h

theorem isNaN_of_div (h : (x / y).isNaN = false) : x.isNaN = false ∧ y.isNaN = false :=
  isNaN_of_absorbing (f := div) (fun _ => rfl) (fun x => by cases x <;> rfl) h

theorem isNaN_sub (hx : x.isFinite) (hy : y.isNaN = false) : (x - y).isNaN = false := by
  cases x with
  | nan => cases hx
  | infinity => cases hx
  | finite s rank =>
      cases y with
      | nan => cases hy
      | infinity => rfl
      | finite t other => exact isNaN_round _ _

theorem isNaN_mul (hx : x.isFinite) (hy : y.isFinite) : (x * y).isNaN = false := by
  obtain ⟨z, hz⟩ := mul_eq_round hx hy
  rw [hz, isNaN_round]

end Operands

section Order

variable {F : Format} [NeZero F.infinityRank] {x y : Binary F} {q : ℚ}

/-- What is below something and not negative is finite. -/
theorem isFinite_of_lt (hneg : ¬ x < 0) (h : x < y) : x.isFinite := by
  obtain ⟨hx, -, hlt⟩ := (lt_iff _ _).1 h
  have hnonneg := (not_neg_iff x).1 hneg
  have hmost := natAbs_ordinal_le y
  rw [isFinite_iff hx]
  simp only [hx, Bool.false_eq_true, false_or] at hnonneg
  omega

theorem IsMagnitude.of_not_neg (hx : x.isFinite) (hneg : ¬ x < 0) : x.IsMagnitude := by
  cases x with
  | nan => cases hx
  | infinity => cases hx
  | finite s rank => exact ⟨hx, not_neg_finite.1 hneg⟩

theorem IsMagnitude.not_neg (h : x.IsMagnitude) : ¬ x < 0 := by
  obtain ⟨hfinite, hnonneg⟩ := h
  cases x with
  | nan => cases hfinite
  | infinity => cases hfinite
  | finite s rank => exact not_neg_finite.2 hnonneg

theorem round_le_of_le (hx : x.isFinite) (h : q ≤ x.toRat) (z : Bool) : round z q ≤ x :=
  (round_le_iff hx z).2 (not_clearlyAbove_of_le hx h)

end Order

section Zero

variable {x y : Single}

theorem IsZero.isFinite (h : x.IsZero) : x.isFinite :=
  InUnit.isFinite ⟨h.1, Binary.le_trans h.2 inUnit_zero.2⟩

theorem IsZero.toRat (h : x.IsZero) : x.toRat = 0 := by
  rw [toRat_eq_value h.isFinite, (isZero_iff.1 h).2, Format.value_zero]

theorem isMagnitude_zero : (0 : Single).IsMagnitude :=
  ⟨zero_mem.1, zero_mem.2.ge⟩

theorem isFinite_of_mul_zero (hy : y.IsZero) (h : (x * y).isNaN = false) : x.isFinite := by
  have hnumber := (isNaN_of_mul h).1
  cases x with
  | nan => cases hnumber
  | infinity s =>
      cases y with
      | nan => cases hy.1
      | infinity t => cases hy.isFinite
      | finite t rank =>
          have hrank : rank.val = 0 := by
            have hzero := (isZero_iff.1 hy).2
            rw [ordinal_finite] at hzero
            split at hzero <;> omega
          have hmul : (mul (infinity s) (finite t rank)).isNaN = false := h
          rw [mul, if_pos hrank] at hmul
          cases hmul
  | finite s rank => rfl

protected theorem mul_comm (x y : Single) : x * y = y * x := by
  show mul x y = mul y x
  cases x with
  | nan => cases y <;> rfl
  | infinity s =>
      cases y with
      | nan => rfl
      | infinity t => simp only [mul, Bool.xor_comm]
      | finite t rank => simp only [mul, Bool.xor_comm]
  | finite s rank =>
      cases y with
      | nan => rfl
      | infinity t => simp only [mul, Bool.xor_comm]
      | finite t other => simp only [mul, Bool.xor_comm, Rat.mul_comm]

theorem isFinite_of_zero_mul (hx : x.IsZero) (h : (x * y).isNaN = false) : y.isFinite := by
  rw [Binary.mul_comm] at h
  exact isFinite_of_mul_zero hx h

theorem IsZero.mul (hx : x.IsZero) (hy : y.isFinite) : (x * y).IsZero := by
  obtain ⟨z, hz⟩ := mul_eq_round hx.isFinite hy
  rw [hz, hx.toRat, zero_mul, isZero_iff, isNaN_round, ordinal_round, Format.nearest_zero]
  exact ⟨rfl, rfl⟩

theorem IsZero.not_neg_neg (h : x.IsZero) : ¬ -x < 0 := by
  rw [not_neg_iff, ordinal_neg, (isZero_iff.1 h).2]
  exact Or.inr le_rfl

/-- Taking nothing away changes no value. -/
theorem toRat_sub_zero (hx : x.isFinite) (hy : y.IsZero) :
    (x - y).isFinite ∧ (x - y).toRat = x.toRat := by
  obtain ⟨z, hz⟩ := sub_eq_round hx hy.isFinite
  rw [hy.toRat, sub_zero] at hz
  have hfinite : (x - y).isFinite := by
    rw [hz]
    exact (round_mem hx hx le_rfl le_rfl z).1
  refine ⟨hfinite, ?_⟩
  rw [toRat_eq_value hfinite, hz, ordinal_round, nearest_toRat hx, ← toRat_eq_value hx]

end Zero

section Products

variable {x y m : Single}

/-- Whether a product is finite depends on the values of its factors alone. -/
theorem isFinite_mul_congr (hx : x.isFinite) (hm : m.isFinite) (hy : y.isFinite)
    (h : x.toRat = m.toRat) : (x * y).isFinite ↔ (m * y).isFinite := by
  obtain ⟨u, hu⟩ := mul_eq_round hx hy
  obtain ⟨v, hv⟩ := mul_eq_round hm hy
  rw [hu, hv, isFinite_iff (isNaN_round _ _), isFinite_iff (isNaN_round _ _), ordinal_round,
    ordinal_round, h]

/-- Part of what is finite is finite. -/
theorem isFinite_mul_of_inUnit (hx : x.InUnit) (hy : y.isFinite) : (x * y).isFinite := by
  obtain ⟨hlow, hhigh⟩ := (inUnit_iff_toRat hx.isFinite).1 hx
  obtain ⟨z, hz⟩ := mul_eq_round hx.isFinite hy
  rw [hz]
  rcases le_total 0 y.toRat with hpos | hneg
  · exact (round_mem zero_mem.1 hy (by rw [zero_mem.2]; exact mul_nonneg hlow hpos)
      (mul_le_of_le_one_left hpos hhigh) z).1
  · exact (round_mem hy zero_mem.1 (le_mul_of_le_one_left hneg hhigh)
      (by rw [zero_mem.2]; exact mul_nonpos_of_nonneg_of_nonpos hlow hneg) z).1

/-- A product is below that of a larger magnitude. -/
theorem mul_mem_of_le (hx : x.IsMagnitude) (hm : m.IsMagnitude) (hy : y.IsMagnitude)
    (hle : x.toRat ≤ m.toRat) (h : (m * y).isFinite) :
    (x * y).IsMagnitude ∧ (x * y).toRat ≤ (m * y).toRat := by
  have hmost := (isFinite_mul_iff hm hy).1 h
  have hproduct : Format.single.rounded (x.toRat * y.toRat) ≤
      Format.single.rounded (m.toRat * y.toRat) :=
    Format.rounded_mono (mul_nonneg hx.nonneg hy.nonneg) (mul_le_mul_of_nonneg_right hle hy.nonneg)
  obtain ⟨hmagnitude, hvalue⟩ := mul_spec hx hy (hproduct.trans_lt hmost)
  rw [hvalue, (mul_spec hm hy hmost).2]
  exact ⟨hmagnitude, hproduct⟩

end Products

section Infinities

variable {x y d : Single}

theorem eq_of_infinity_le_zero {s : Bool} (h : (infinity s : Single) ≤ 0) : s = true := by
  cases s with
  | true => rfl
  | false => exact absurd h (by decide +kernel)

theorem div_le_zero (hx : x ≤ 0) (hd : d.isFinite) (hpos : 0 < d.toRat) : x / d ≤ 0 := by
  cases x with
  | nan => cases hx
  | infinity s =>
      obtain rfl := eq_of_infinity_le_zero hx
      cases d with
      | nan => cases hd
      | infinity t => cases hd
      | finite t rank =>
          have ht : t = false := by
            cases t with
            | false => rfl
            | true =>
                have hnonneg := Format.single.magnitude_nonneg rank
                simp only [toRat, if_true] at hpos
                linarith
          rw [ht]
          exact hx
  | finite s rank =>
      obtain ⟨z, hz⟩ := div_eq_round (x := finite s rank) rfl hd hpos.ne'
      have hle := (le_iff_toRat rfl zero_mem.1).1 hx
      rw [zero_mem.2] at hle
      rw [hz]
      apply round_le_of_le zero_mem.1
      rw [zero_mem.2]
      exact div_nonpos_of_nonpos_of_nonneg hle hpos.le

theorem add_le_left (hx : x.isFinite) (hy : y ≤ 0) : x + y ≤ x := by
  cases y with
  | nan => cases hy
  | infinity s =>
      obtain rfl := eq_of_infinity_le_zero hy
      cases x with
      | nan => cases hx
      | infinity t => cases hx
      | finite t rank => rfl
  | finite s rank =>
      obtain ⟨z, hz⟩ := add_eq_round hx (y := finite s rank) rfl
      have hle := (le_iff_toRat rfl zero_mem.1).1 hy
      rw [zero_mem.2] at hle
      rw [hz]
      exact round_le_of_le hx (by linarith) z

end Infinities

end Binary
end MotorSupervisor
