import Mathlib.Tactic
import MotorSupervisor.Binary.Arithmetic
import MotorSupervisor.Proofs.Binary.Rank

/-!
# Order of numbers and rounding

Every number has an **ordinal**, its signed place in the order of values: zero
has ordinal `0`, the finite numbers have their signed ranks, and the infinities
come right after the largest finite numbers.  Comparisons of numbers are
comparisons of ordinals, and rounding a rational is the monotone map
`Format.nearest` from rationals to ordinals.

**Results.**
* `le_iff`, `lt_iff`: comparisons through ordinals.
* `ordinal_round`, `Format.nearest_mono`: rounding is monotone.
* `nearest_toRat`: rounding keeps what the format can represent.
* `round_mem`: a rational between two finite numbers is rounded to a finite
  number between them.
-/

namespace MotorSupervisor

namespace Format

variable (F : Format)

/-- The rational of a signed rank. -/
def value (n : ℤ) : ℚ :=
  if n < 0 then -F.magnitude n.natAbs else F.magnitude n.natAbs

/-- The ordinal nearest to a rational. -/
def nearest (q : ℚ) : ℤ :=
  if q < 0 then -(min (F.nearestRank (-q)) F.infinityRank : Nat)
  else (min (F.nearestRank q) F.infinityRank : Nat)

theorem value_natCast (n : Nat) : F.value n = F.magnitude n := by
  simp [value]

theorem value_neg (n : ℤ) : F.value (-n) = -F.value n := by
  unfold value
  rcases lt_trichotomy n 0 with h | rfl | h
  · simp [h, not_lt_of_gt h]
  · simp [F.magnitude_zero]
  · simp [h, not_lt_of_gt h]

theorem value_zero : F.value 0 = 0 :=
  F.magnitude_zero

theorem value_strictMono : StrictMono F.value := by
  intro m n h
  have hmag := F.magnitude_strictMono
  unfold value
  split_ifs with hm hn hn
  · exact neg_lt_neg (hmag (by omega))
  · have : F.magnitude 0 < F.magnitude m.natAbs := hmag (by omega)
    rw [F.magnitude_zero] at this
    linarith [F.magnitude_nonneg n.natAbs]
  · omega
  · exact hmag (by omega)

theorem nearest_zero : F.nearest 0 = 0 := by
  simp [nearest, F.nearestRank_zero]

theorem nearest_of_nonneg {q : ℚ} (hq : 0 ≤ q) :
    F.nearest q = (min (F.nearestRank q) F.infinityRank : Nat) := by
  rw [nearest, if_neg (not_lt.2 hq)]

theorem nearest_neg (q : ℚ) : F.nearest (-q) = -F.nearest q := by
  rcases lt_trichotomy q 0 with h | rfl | h
  · simp [nearest, h, not_lt_of_gt h]
  · simp [nearest_zero]
  · simp [nearest, h, not_lt_of_gt h]

theorem nearest_nonneg {q : ℚ} (hq : 0 ≤ q) : 0 ≤ F.nearest q := by
  rw [F.nearest_of_nonneg hq]
  exact Int.natCast_nonneg _

theorem nearest_mono : Monotone F.nearest := by
  have pos : ∀ {p q : ℚ}, 0 ≤ p → p ≤ q → F.nearest p ≤ F.nearest q := by
    intro p q hp h
    have := F.nearestRank_mono hp h
    rw [F.nearest_of_nonneg hp, F.nearest_of_nonneg (hp.trans h)]
    exact_mod_cast min_le_min_right _ this
  intro p q h
  rcases le_total 0 p with hp | hp
  · exact pos hp h
  · rcases le_total 0 q with hq | hq
    · have hp' := F.nearest_nonneg (neg_nonneg.2 hp)
      have hq' := F.nearest_nonneg hq
      rw [nearest_neg] at hp'
      omega
    · have := pos (neg_nonneg.2 hq) (neg_le_neg h)
      rw [nearest_neg, nearest_neg] at this
      omega

theorem nearest_value {n : ℤ} (h : n.natAbs ≤ F.infinityRank) :
    F.nearest (F.value n) = n := by
  have pos : ∀ m : Nat, m ≤ F.infinityRank → F.nearest (F.value m) = m := by
    intro m hm
    rw [value_natCast, F.nearest_of_nonneg (F.magnitude_nonneg m), F.nearestRank_magnitude,
      min_eq_left hm]
  obtain ⟨m, rfl | rfl⟩ := Int.eq_nat_or_neg n
  · exact pos m (by simpa using h)
  · rw [value_neg, nearest_neg, pos m (by simpa using h)]

/-- Where the step from an ordinal to the next one lies. -/
theorem nearest_le_natCast_iff {q : ℚ} (hq : 0 ≤ q) {r : Nat} (hr : r < F.infinityRank) :
    F.nearest q ≤ r ↔ q < F.midpoint r ∨ (q = F.midpoint r ∧ r % 2 = 0) := by
  rw [← F.nearestRank_le_iff hq, F.nearest_of_nonneg hq, Int.ofNat_le, min_le_iff]
  omega

/-- Only rationals beyond half of the least positive number are rounded away
from zero. -/
theorem nearest_nonpos_iff (hF : 0 < F.infinityRank) {q : ℚ} :
    F.nearest q ≤ 0 ↔ q ≤ F.midpoint 0 := by
  have hmid := F.magnitude_lt_midpoint 0
  rw [F.magnitude_zero] at hmid
  rcases le_or_gt 0 q with hq | hq
  · have := F.nearest_le_natCast_iff hq hF
    rw [Nat.cast_zero] at this
    rw [this, le_iff_lt_or_eq]
    simp
  · have hneg := F.nearest_mono hq.le
    rw [nearest_zero] at hneg
    exact iff_of_true hneg (by linarith)

theorem nearest_nonneg_iff (hF : 0 < F.infinityRank) {q : ℚ} :
    0 ≤ F.nearest q ↔ -F.midpoint 0 ≤ q := by
  have := F.nearest_nonpos_iff hF (q := -q)
  rw [nearest_neg] at this
  constructor
  · intro h
    linarith [this.1 (by omega)]
  · intro h
    have := this.2 (by linarith)
    omega

end Format

namespace Binary

variable {F : Format}

/-- Place in the order of values; zeros have ordinal `0`. -/
def ordinal : Binary F → ℤ
  | nan => 0
  | infinity negative => if negative then -F.infinityRank else F.infinityRank
  | finite negative rank => if negative then -rank.val else rank.val

@[simp] theorem ordinal_infinity (s : Bool) :
    (infinity s : Binary F).ordinal = if s then -(F.infinityRank : ℤ) else F.infinityRank :=
  rfl

@[simp] theorem ordinal_finite (s : Bool) (rank : Fin F.infinityRank) :
    (finite s rank).ordinal = if s then -(rank.val : ℤ) else rank.val :=
  rfl

@[simp] theorem isNaN_nan : (nan : Binary F).isNaN = true :=
  rfl

@[simp] theorem isNaN_infinity (s : Bool) : (infinity s : Binary F).isNaN = false :=
  rfl

@[simp] theorem isNaN_finite (s : Bool) (rank : Fin F.infinityRank) :
    (finite s rank).isNaN = false :=
  rfl

theorem toRat_finite (negative : Bool) (rank : Fin F.infinityRank) :
    (finite negative rank).toRat = F.value (finite negative rank).ordinal := by
  cases negative with
  | true => simp [toRat, F.value_neg, F.value_natCast]
  | false => simp [toRat, F.value_natCast]

theorem toRat_eq_value {x : Binary F} (hx : x.isFinite) : x.toRat = F.value x.ordinal := by
  cases x with
  | nan => simp [isFinite] at hx
  | infinity => simp [isFinite] at hx
  | finite negative rank => exact toRat_finite negative rank

theorem isNaN_of_isFinite {x : Binary F} (hx : x.isFinite) : x.isNaN = false := by
  cases x <;> simp_all [isFinite, isNaN]

theorem eq_nan {x : Binary F} (h : x.isNaN = true) : x = nan := by
  cases x with
  | nan => rfl
  | infinity => cases h
  | finite => cases h

theorem natAbs_ordinal_le (x : Binary F) : x.ordinal.natAbs ≤ F.infinityRank := by
  cases x with
  | nan => simp [ordinal]
  | infinity negative => cases negative <;> simp
  | finite negative rank =>
      have := rank.isLt
      cases negative <;> simp [this.le]

theorem isFinite_iff {x : Binary F} (hx : x.isNaN = false) :
    x.isFinite ↔ x.ordinal.natAbs < F.infinityRank := by
  cases x with
  | nan => simp at hx
  | infinity negative => cases negative <;> simp [isFinite]
  | finite negative rank =>
      have := rank.isLt
      cases negative <;> simp [isFinite]

/-- Rounding keeps what the format can represent. -/
theorem nearest_toRat {x : Binary F} (hx : x.isFinite) : F.nearest x.toRat = x.ordinal := by
  rw [toRat_eq_value hx, F.nearest_value (natAbs_ordinal_le x)]

@[simp] theorem isNaN_round (z : Bool) (q : ℚ) : (round z q : Binary F).isNaN = false := by
  unfold round
  dsimp only
  split_ifs <;> rfl

@[simp] theorem ordinal_round (z : Bool) (q : ℚ) :
    (round z q : Binary F).ordinal = F.nearest q := by
  have habs : q.abs = if 0 ≤ q then q else -q := rfl
  unfold round
  dsimp only
  rcases lt_trichotomy q 0 with hq | rfl | hq
  · rw [habs, if_neg (not_le.2 hq), if_neg hq.ne, decide_eq_true hq, Format.nearest, if_pos hq]
    split_ifs with h
    · simp [min_eq_left h.le]
    · simp [min_eq_right (not_lt.1 h)]
  · rw [F.nearest_zero, if_pos rfl]
    simp only [Rat.abs_zero, F.nearestRank_zero]
    split_ifs with h
    · simp
    · simp [Nat.eq_zero_of_not_pos h]
  · rw [habs, if_pos hq.le, if_neg hq.ne', decide_eq_false (not_lt.2 hq.le), Format.nearest,
      if_neg (not_lt.2 hq.le)]
    split_ifs with h
    · simp [min_eq_left h.le]
    · simp [min_eq_right (not_lt.1 h)]

@[simp] theorem ordinal_neg (x : Binary F) : (-x).ordinal = -x.ordinal := by
  show (neg x).ordinal = _
  cases x with
  | nan => rfl
  | infinity negative => cases negative <;> simp [neg]
  | finite negative rank => cases negative <;> simp [neg]

@[simp] theorem isNaN_neg (x : Binary F) : (-x).isNaN = x.isNaN := by
  show (neg x).isNaN = _
  cases x <;> rfl

@[simp] theorem isFinite_neg (x : Binary F) : (-x).isFinite = x.isFinite := by
  show (neg x).isFinite = _
  cases x <;> rfl

@[simp] theorem toRat_neg (x : Binary F) : (-x).toRat = -x.toRat := by
  show (neg x).toRat = _
  cases x with
  | nan => simp [neg, toRat]
  | infinity => simp [neg, toRat]
  | finite negative rank => cases negative <;> simp [neg, toRat]

theorem zero_eq : (0 : Binary F) = round false 0 :=
  rfl

@[simp] theorem ordinal_zero : (0 : Binary F).ordinal = 0 := by
  rw [zero_eq, ordinal_round, F.nearest_zero]

@[simp] theorem isNaN_zero : (0 : Binary F).isNaN = false := by
  rw [zero_eq, isNaN_round]

section Comparison

variable [NeZero F.infinityRank]

/-- Comparison of numbers is comparison of ordinals. -/
theorem le_iff (x y : Binary F) :
    x ≤ y ↔ x.isNaN = false ∧ y.isNaN = false ∧ x.ordinal ≤ y.ordinal := by
  have hF := Nat.pos_of_neZero F.infinityRank
  show x.le y = true ↔ _
  cases x with
  | nan => simp [le]
  | infinity s =>
      cases y with
      | nan => simp [le]
      | infinity t => cases s <;> cases t <;> simp [le]; omega
      | finite t rank =>
          have := rank.isLt
          cases s <;> cases t <;> simp [le]; omega
  | finite s rank =>
      have := rank.isLt
      cases y with
      | nan => simp [le]
      | infinity t => cases s <;> cases t <;> simp [le]; omega
      | finite t other =>
          simp [le, toRat_finite, F.value_strictMono.le_iff_le]

theorem lt_iff (x y : Binary F) :
    x < y ↔ x.isNaN = false ∧ y.isNaN = false ∧ x.ordinal < y.ordinal := by
  have hF := Nat.pos_of_neZero F.infinityRank
  show x.lt y = true ↔ _
  cases x with
  | nan => simp [lt]
  | infinity s =>
      cases y with
      | nan => simp [lt]
      | infinity t => cases s <;> cases t <;> simp [lt]; omega
      | finite t rank =>
          have := rank.isLt
          cases s <;> cases t <;> simp [lt]; omega
  | finite s rank =>
      have := rank.isLt
      cases y with
      | nan => simp [lt]
      | infinity t => cases s <;> cases t <;> simp [lt]; omega
      | finite t other =>
          simp [lt, toRat_finite, F.value_strictMono.lt_iff_lt]

theorem le_iff_toRat {x y : Binary F} (hx : x.isFinite) (hy : y.isFinite) :
    x ≤ y ↔ x.toRat ≤ y.toRat := by
  rw [le_iff, toRat_eq_value hx, toRat_eq_value hy, F.value_strictMono.le_iff_le]
  simp [isNaN_of_isFinite hx, isNaN_of_isFinite hy]

theorem lt_iff_toRat {x y : Binary F} (hx : x.isFinite) (hy : y.isFinite) :
    x < y ↔ x.toRat < y.toRat := by
  rw [lt_iff, toRat_eq_value hx, toRat_eq_value hy, F.value_strictMono.lt_iff_lt]
  simp [isNaN_of_isFinite hx, isNaN_of_isFinite hy]

end Comparison

/-- A rational between two finite numbers is rounded to a finite number
between them. -/
theorem round_mem {low high : Binary F} (hlow : low.isFinite) (hhigh : high.isFinite)
    {q : ℚ} (h₁ : low.toRat ≤ q) (h₂ : q ≤ high.toRat) (z : Bool) :
    (round z q : Binary F).isFinite ∧ low.toRat ≤ (round z q : Binary F).toRat ∧
      (round z q : Binary F).toRat ≤ high.toRat := by
  have ho₁ := F.nearest_mono h₁
  have ho₂ := F.nearest_mono h₂
  rw [nearest_toRat hlow] at ho₁
  rw [nearest_toRat hhigh] at ho₂
  have hfin : (round z q : Binary F).isFinite := by
    have hl := (isFinite_iff (isNaN_of_isFinite hlow)).1 hlow
    have hh := (isFinite_iff (isNaN_of_isFinite hhigh)).1 hhigh
    rw [isFinite_iff (isNaN_round z q), ordinal_round]
    omega
  refine ⟨hfin, ?_, ?_⟩
  · rw [toRat_eq_value hlow, toRat_eq_value hfin, ordinal_round]
    exact F.value_strictMono.monotone ho₁
  · rw [toRat_eq_value hhigh, toRat_eq_value hfin, ordinal_round]
    exact F.value_strictMono.monotone ho₂

instance : NeZero Format.single.infinityRank :=
  ⟨by decide⟩

instance : NeZero Format.double.infinityRank :=
  ⟨by decide⟩

end Binary
end MotorSupervisor
