import MotorSupervisor.Proofs.Binary.Unit

/-!
# Neighbouring numbers

The **threshold** of an ordinal lies halfway between its value and the value of
the next ordinal.  A rational is rounded past an ordinal exactly when it lies
beyond the threshold; on the threshold itself the even ordinal wins.  So it can
be said in exact arithmetic when a rounded result passes a given number, which
is a little later than the exact result does.

**Definitions.**
* `Binary.Between`: from one number to another, in either direction.
* `Binary.ClearlyAbove`, `Binary.ClearlyBelow`: rationals that are rounded past
  a number.

**Results.**
* `nearest_le_iff`, `le_nearest_iff`: rounding by thresholds, for both signs.
* `round_le_iff`, `le_round_iff`: where a rounded rational lies.
* `Between.isFinite`, `between_iff_of_le`: what lies between two numbers.
* `toRat_le_of_lt_abs_sub`: a rounded distance against the exact one.
-/

namespace MotorSupervisor

namespace Format

variable (F : Format)

/-- Halfway between an ordinal and the next one. -/
def threshold (n : ℤ) : ℚ :=
  (F.value n + F.value (n + 1)) / 2

theorem threshold_natCast (r : Nat) : F.threshold r = F.midpoint r := by
  rw [threshold, midpoint_eq, ← Nat.cast_succ, value_natCast, value_natCast, magnitude_succ]
  ring

theorem threshold_neg (n : ℤ) : F.threshold (-n) = -F.threshold (n - 1) := by
  have hnext : -n + 1 = -(n - 1) := by ring
  rw [threshold, threshold, hnext, value_neg, value_neg, sub_add_cancel]
  ring

theorem value_lt_threshold (n : ℤ) : F.value n < F.threshold n := by
  have hlt := F.value_strictMono (Int.lt_succ n)
  rw [threshold]
  linarith

theorem threshold_lt_value (n : ℤ) : F.threshold (n - 1) < F.value n := by
  have hlt := F.value_strictMono (Int.sub_one_lt_of_le (le_refl n))
  rw [threshold, sub_add_cancel]
  linarith

variable {F} {q : ℚ} {n : ℤ}

theorem nearest_le_iff (hn : n.natAbs < F.infinityRank) :
    F.nearest q ≤ n ↔ q < F.threshold n ∨ (q = F.threshold n ∧ n % 2 = 0) := by
  have pos : ∀ (p : ℚ) (r : Nat), r < F.infinityRank →
      (F.nearest p ≤ r ↔ p < F.threshold r ∨ (p = F.threshold r ∧ (r : ℤ) % 2 = 0)) := by
    intro p r hr
    have hparity : (r : ℤ) % 2 = 0 ↔ r % 2 = 0 := by omega
    rw [threshold_natCast, hparity]
    rcases le_or_gt 0 p with hp | hp
    · exact F.nearest_le_natCast_iff hp hr
    · have hneg := F.nearest_mono hp.le
      rw [nearest_zero] at hneg
      have hmid := (F.magnitude_nonneg r).trans_lt (F.magnitude_lt_midpoint r)
      exact iff_of_true (by omega) (Or.inl (hp.trans hmid))
  rcases le_or_gt 0 n with hnonneg | hneg
  · obtain ⟨r, rfl⟩ := Int.eq_ofNat_of_zero_le hnonneg
    exact pos q r (by simpa using hn)
  · -- below zero the inequality becomes a strict one above zero
    obtain ⟨m, rfl⟩ : ∃ m : Nat, n = -((m : ℤ) + 1) := ⟨n.natAbs - 1, by omega⟩
    have hflip : F.nearest q ≤ -((m : ℤ) + 1) ↔ ¬ F.nearest (-q) ≤ m := by
      rw [nearest_neg]
      omega
    have hparity : (-((m : ℤ) + 1)) % 2 = 0 ↔ ¬ (m : ℤ) % 2 = 0 := by omega
    have hlt : q < -F.threshold m ↔ F.threshold m < -q := lt_neg
    have heq : q = -F.threshold m ↔ -q = F.threshold m := by rw [neg_eq_iff_eq_neg]
    rw [hflip, pos (-q) m (by omega), threshold_neg, add_sub_cancel_right, hparity, hlt, heq]
    rcases lt_trichotomy (-q) (F.threshold m) with h | h | h
    · simp [h, h.not_gt, h.ne]
    · simp [h]
    · simp [h, h.not_gt, h.ne']

theorem le_nearest_iff (hn : n.natAbs < F.infinityRank) :
    n ≤ F.nearest q ↔ F.threshold (n - 1) < q ∨ (q = F.threshold (n - 1) ∧ n % 2 = 0) := by
  have hflip := nearest_le_iff (F := F) (q := -q) (n := -n) (by simpa using hn)
  have hparity : -n % 2 = 0 ↔ n % 2 = 0 := by omega
  rw [nearest_neg, neg_le_neg_iff, threshold_neg, neg_lt_neg_iff, neg_inj, hparity] at hflip
  exact hflip

theorem nearest_abs (q : ℚ) : F.nearest |q| = |F.nearest q| := by
  rcases le_total 0 q with hq | hq
  · rw [abs_of_nonneg hq, abs_of_nonneg (F.nearest_nonneg hq)]
  · have hneg := F.nearest_nonneg (neg_nonneg.2 hq)
    rw [nearest_neg] at hneg
    rw [abs_of_nonpos hq, nearest_neg, abs_of_nonpos (by omega)]

end Format

namespace Binary

variable {F : Format}

/-- From one number to another, both included and in either direction. -/
def Between (x a b : Binary F) : Prop :=
  (a ≤ x ∧ x ≤ b) ∨ (b ≤ x ∧ x ≤ a)

instance (x a b : Binary F) : Decidable (x.Between a b) :=
  inferInstanceAs (Decidable (_ ∨ _))

/-- Far enough above a number to be rounded past it. -/
def ClearlyAbove (x : Binary F) (q : ℚ) : Prop :=
  F.threshold x.ordinal < q ∨ (q = F.threshold x.ordinal ∧ x.ordinal % 2 ≠ 0)

/-- Far enough below a number to be rounded past it. -/
def ClearlyBelow (x : Binary F) (q : ℚ) : Prop :=
  q < F.threshold (x.ordinal - 1) ∨ (q = F.threshold (x.ordinal - 1) ∧ x.ordinal % 2 ≠ 0)

instance (x : Binary F) (q : ℚ) : Decidable (x.ClearlyAbove q) :=
  inferInstanceAs (Decidable (_ ∨ _))

instance (x : Binary F) (q : ℚ) : Decidable (x.ClearlyBelow q) :=
  inferInstanceAs (Decidable (_ ∨ _))

variable {x y a b : Binary F} {q : ℚ}

theorem between_comm : x.Between a b ↔ x.Between b a :=
  or_comm

theorem not_clearlyAbove_of_le (hx : x.isFinite) (h : q ≤ x.toRat) : ¬ x.ClearlyAbove q := by
  rw [toRat_eq_value hx] at h
  have hlt := h.trans_lt (F.value_lt_threshold x.ordinal)
  rintro (habove | ⟨heq, -⟩)
  · exact lt_asymm hlt habove
  · exact hlt.ne heq

theorem not_clearlyBelow_of_le (hx : x.isFinite) (h : x.toRat ≤ q) : ¬ x.ClearlyBelow q := by
  rw [toRat_eq_value hx] at h
  have hlt := (F.threshold_lt_value x.ordinal).trans_le h
  rintro (hbelow | ⟨heq, -⟩)
  · exact lt_asymm hlt hbelow
  · exact hlt.ne' heq

theorem ordinal_abs (x : Binary F) : x.abs.ordinal = |x.ordinal| := by
  cases x with
  | nan => rfl
  | infinity s => cases s <;> simp [abs]
  | finite s rank => cases s <;> simp [abs]

variable [NeZero F.infinityRank]

/-- A number below a rounded distance does not exceed the exact one. -/
theorem toRat_le_of_lt_abs_sub (hx : x.isFinite) (ha : a.isFinite) (hb : b.isFinite)
    (h : x < (a - b).abs) : x.toRat ≤ |a.toRat - b.toRat| := by
  obtain ⟨z, hz⟩ := sub_eq_round ha hb
  rw [lt_iff, hz, ordinal_abs, ordinal_round, ← Format.nearest_abs] at h
  by_contra hlt
  have hmono := F.nearest_mono (not_le.1 hlt).le
  rw [nearest_toRat hx] at hmono
  omega

theorem round_le_iff (hx : x.isFinite) (z : Bool) :
    (round z q : Binary F) ≤ x ↔ ¬ x.ClearlyAbove q := by
  have hnan := isNaN_of_isFinite hx
  rw [le_iff, ordinal_round, isNaN_round, hnan, Format.nearest_le_iff ((isFinite_iff hnan).1 hx),
    ClearlyAbove]
  rcases lt_trichotomy q (F.threshold x.ordinal) with h | h | h
  · simp [h, h.not_gt, h.ne]
  · simp [h]
  · simp [h, h.not_gt, h.ne']

theorem le_round_iff (hx : x.isFinite) (z : Bool) :
    x ≤ (round z q : Binary F) ↔ ¬ x.ClearlyBelow q := by
  have hnan := isNaN_of_isFinite hx
  rw [le_iff, ordinal_round, isNaN_round, hnan, Format.le_nearest_iff ((isFinite_iff hnan).1 hx),
    ClearlyBelow]
  rcases lt_trichotomy q (F.threshold (x.ordinal - 1)) with h | h | h
  · simp [h, h.not_gt, h.ne]
  · simp [h]
  · simp [h, h.not_gt, h.ne']

protected theorem le_total (hx : x.isNaN = false) (hy : y.isNaN = false) : x ≤ y ∨ y ≤ x := by
  rw [le_iff, le_iff]
  simp only [hx, hy, true_and]
  omega

theorem not_lt_iff_le (hx : x.isNaN = false) (hy : y.isNaN = false) : ¬ x < y ↔ y ≤ x := by
  rw [le_iff, lt_iff]
  simp only [hx, hy, true_and]
  omega

protected theorem le_trans (hxy : x ≤ y) (hya : y ≤ a) : x ≤ a := by
  rw [le_iff] at *
  exact ⟨hxy.1, hya.2.1, hxy.2.2.trans hya.2.2⟩

protected theorem le_of_lt (h : x < y) : x ≤ y := by
  rw [lt_iff] at h
  exact (le_iff x y).2 ⟨h.1, h.2.1, h.2.2.le⟩

protected theorem lt_of_le_of_lt (hxy : x ≤ y) (hya : y < a) : x < a := by
  rw [le_iff] at hxy
  rw [lt_iff] at *
  exact ⟨hxy.1, hya.2.1, hxy.2.2.trans_lt hya.2.2⟩

protected theorem lt_of_lt_of_le (hxy : x < y) (hya : y ≤ a) : x < a := by
  rw [le_iff] at hya
  rw [lt_iff] at *
  exact ⟨hxy.1, hya.2.1, hxy.2.2.trans_le hya.2.2⟩

/-- Between finite numbers there are only finite numbers. -/
theorem Between.isFinite (h : x.Between a b) (ha : a.isFinite) (hb : b.isFinite) :
    x.isFinite := by
  have ha' := (isFinite_iff (isNaN_of_isFinite ha)).1 ha
  have hb' := (isFinite_iff (isNaN_of_isFinite hb)).1 hb
  rcases h with ⟨hlow, hhigh⟩ | ⟨hlow, hhigh⟩ <;>
  · rw [le_iff] at hlow hhigh
    rw [isFinite_iff hlow.2.1]
    omega

theorem between_right (ha : a.isNaN = false) (hb : b.isNaN = false) : b.Between a b := by
  have hrefl : b ≤ b := by simp [le_iff, hb]
  rcases Binary.le_total ha hb with h | h
  · exact Or.inl ⟨h, hrefl⟩
  · exact Or.inr ⟨hrefl, h⟩

theorem between_iff_of_le (h : a ≤ b) : x.Between a b ↔ a ≤ x ∧ x ≤ b := by
  constructor
  · rintro (hx | ⟨hlow, hhigh⟩)
    · exact hx
    · exact ⟨Binary.le_trans h hlow, Binary.le_trans hhigh h⟩
  · exact Or.inl

end Binary
end MotorSupervisor
