import Mathlib.Order.Bounds.Basic
import Mathlib.Tactic.Linarith
import MotorSupervisor.Driver.Bench
import MotorSupervisor.Proofs.Run

/-!
# Speed and commutation period

Both conversions divide one and the same number, the scale of the pole count, so
they are one function: truncated division, which also sends zero to zero.  What is
lost by the truncation is best said without it.  A speed is reached at a period
exactly when their product does not exceed the scale, and that is symmetric in the
two.

Everything is proved for natural numbers first and carried over to words.

**Definitions.**
* `Controller.KeepsToLimit`: the speeds of a controller and a period limit.
* `PoleCount.Reciprocal`: the laws of the two conversions at a pole count.

**Results.**
* `div_div_div`, `round_trip_bounds`: repeated truncated divisions.
* `toNat_scale`, `toNat_rpmOfPeriod`: words as natural numbers.
* `le_rpmOfPeriod_iff`: speeds that are reached, periods that are short enough.
* `isGreatest_rpmOfPeriod`: the speed at a period is the top speed for it.
* `conversions_reciprocal`: the laws at every pole count, and what they mean for the
  setpoint of a controller.
-/

namespace MotorSupervisor

section Quotients

variable {x n : Nat}

/-- Dividing three times is dividing once. -/
theorem div_div_div (x n : Nat) : x / (x / (x / n)) = x / n := by
  rcases Nat.eq_zero_or_pos n with rfl | hn
  · simp
  rcases Nat.eq_zero_or_pos (x / n) with hzero | hpos
  · simp [hzero]
  have hback : n ≤ x / (x / n) := by
    rw [Nat.le_div_iff_mul_le hpos, Nat.mul_comm]
    exact Nat.div_mul_le_self x n
  apply le_antisymm
  · exact Nat.div_le_div_left hback hn
  · rw [Nat.le_div_iff_mul_le (hn.trans_le hback), Nat.mul_comm]
    exact Nat.div_mul_le_self x (x / n)

/-- A round trip through the quotient does not lead down, and up by less than the
truncation of the quotient allows. -/
theorem round_trip_bounds (hn : 0 < n) (hx : n < x) :
    n ≤ x / (x / n) ∧ (x / (x / n) - n) * (x - n) ≤ n * n := by
  have hpos : 0 < x / n := Nat.div_pos hx.le hn
  have hquotient : x < (x / n + 1) * n := by
    rw [Nat.mul_comm]
    exact Nat.lt_mul_div_succ x hn
  have hback : x / (x / n) * (x / n) ≤ x := Nat.div_mul_le_self x (x / n)
  have hup : n ≤ x / (x / n) := by
    rw [Nat.le_div_iff_mul_le hpos, Nat.mul_comm]
    exact Nat.div_mul_le_self x n
  obtain ⟨gain, hgain⟩ := Nat.exists_eq_add_of_le hup
  obtain ⟨rest, hrest⟩ := Nat.exists_eq_add_of_le hx.le
  generalize x / n = q at *
  refine ⟨hup, ?_⟩
  have hrest' : x - n = rest := by omega
  rw [hgain] at hback ⊢
  rw [Nat.add_sub_cancel_left, hrest']
  -- the gain is less than the share of one unit of the quotient
  have hless : gain * q ≤ n := by
    rw [Nat.add_mul, Nat.mul_comm n q] at hback
    rw [Nat.add_mul] at hquotient
    omega
  have hle : rest ≤ q * n := by
    rw [Nat.add_mul] at hquotient
    omega
  calc gain * rest ≤ gain * (q * n) := Nat.mul_le_mul_left gain hle
    _ = gain * q * n := (Nat.mul_assoc gain q n).symm
    _ ≤ n * n := Nat.mul_le_mul_right n hless

end Quotients

/-- The speeds of a controller keep to a period limit. -/
structure Controller.KeepsToLimit {δ : Type} [MotorDriver δ] (c : Controller δ)
    (limit : UInt32) : Prop where
  /-- A positive speed that the setter lets through, whenever it is called, does not
  have a period shorter than the limit. -/
  setpoint : ∀ (inputs : List (Input (MotorDriver.Change δ))) (rpm : UInt32) (now : UInt64),
    let setpoint := ((c.run inputs).1.setRpm rpm now).state.rpmSetpoint
    0 < setpoint → limit ≤ c.parameters.poles.periodOfRpm setpoint
  /-- The top speed is the greatest such speed. -/
  greatest : 0 < c.parameters.rpmMax →
    IsGreatest {rpm | 0 < rpm ∧ limit ≤ c.parameters.poles.periodOfRpm rpm} c.parameters.rpmMax
  /-- A top speed of zero means that there is none, if there is a limit at all. -/
  unreachable : c.parameters.rpmMax = 0 → 0 < limit →
    ∀ rpm, 0 < rpm → c.parameters.poles.periodOfRpm rpm < limit
  /-- No limit at all is not taken for a short one: it lets no positive speed through. -/
  unlimited : limit = 0 → c.parameters.rpmMax = 0

namespace PoleCount

variable (poles : PoleCount) {rpm period limit : UInt32}

theorem eq_of_count_eq {poles poles' : PoleCount} (h : poles.count = poles'.count) :
    poles = poles' := by
  cases poles
  cases poles'
  cases h
  rfl

/-- The scale fits its word at every pole count. -/
theorem toNat_scale : poles.scale.toNat = 200000000 / poles.count.toNat := by
  have hscale : 120 * Clock.ticksPerSecond / (poles.count.toNat * 6) =
      200000000 / poles.count.toNat := by
    have hminute : 120 * Clock.ticksPerSecond = 200000000 * 6 := rfl
    rw [hminute, Nat.mul_div_mul_right _ _ (by omega)]
  have hfits : 200000000 / poles.count.toNat < UInt32.size :=
    (Nat.div_le_self _ _).trans_lt (by decide)
  rw [scale, hscale, UInt32.toNat_ofNat_of_lt' hfits]

theorem toNat_rpmOfPeriod (period : UInt32) :
    (poles.rpmOfPeriod period).toNat = poles.scale.toNat / period.toNat := by
  unfold rpmOfPeriod
  split
  · rename_i hzero
    rw [hzero, UInt32.toNat_zero, Nat.div_zero]
  · rw [UInt32.toNat_div]

theorem toNat_periodOfRpm (rpm : UInt32) :
    (poles.periodOfRpm rpm).toNat = poles.scale.toNat / rpm.toNat :=
  poles.toNat_rpmOfPeriod rpm

/-- A speed is reached at the periods that are no longer than its own. -/
theorem le_rpmOfPeriod_iff (hrpm : 0 < rpm) (hperiod : 0 < period) :
    rpm ≤ poles.rpmOfPeriod period ↔ period ≤ poles.periodOfRpm rpm := by
  rw [UInt32.lt_iff_toNat_lt] at hrpm hperiod
  rw [UInt32.le_iff_toNat_le, UInt32.le_iff_toNat_le, toNat_rpmOfPeriod, toNat_periodOfRpm,
    Nat.le_div_iff_mul_le hperiod, Nat.le_div_iff_mul_le hrpm, Nat.mul_comm]

@[simp] theorem rpmOfPeriod_zero : poles.rpmOfPeriod 0 = 0 :=
  if_pos rfl

theorem pos_of_rpmOfPeriod_pos (h : 0 < poles.rpmOfPeriod period) : 0 < period := by
  rw [UInt32.pos_iff_ne_zero]
  rintro rfl
  rw [rpmOfPeriod_zero] at h
  exact UInt32.lt_irrefl 0 h

/-- The speed at a period is the greatest one whose own period is not shorter. -/
theorem isGreatest_rpmOfPeriod (h : 0 < poles.rpmOfPeriod limit) :
    IsGreatest {rpm | 0 < rpm ∧ limit ≤ poles.periodOfRpm rpm} (poles.rpmOfPeriod limit) := by
  have hlimit := poles.pos_of_rpmOfPeriod_pos h
  constructor
  · exact ⟨h, (poles.le_rpmOfPeriod_iff h hlimit).1 UInt32.le_rfl⟩
  · rintro rpm ⟨hrpm, hperiod⟩
    exact (poles.le_rpmOfPeriod_iff hrpm hlimit).2 hperiod

/-- The laws of the two conversions at a pole count. -/
structure Reciprocal (poles : PoleCount) : Prop where
  /-- The conversions have an answer for every word. -/
  answers : ∀ word, rpmOfPeriod? poles.count word = .ok (poles.rpmOfPeriod word) ∧
    periodOfRpm? poles.count word = .ok (poles.periodOfRpm word)
  /-- The scale is not cut to fit its word. -/
  scale : poles.scale.toNat = 200000000 / poles.count.toNat
  /-- A speed is reached at the periods that are no longer than its own. -/
  galois : ∀ rpm period, 0 < rpm → 0 < period →
    (rpm ≤ poles.rpmOfPeriod period ↔ period ≤ poles.periodOfRpm rpm)
  /-- Converting three times is converting once. -/
  thrice : ∀ word,
    poles.rpmOfPeriod (poles.periodOfRpm (poles.rpmOfPeriod word)) = poles.rpmOfPeriod word ∧
      poles.periodOfRpm (poles.rpmOfPeriod (poles.periodOfRpm word)) = poles.periodOfRpm word
  /-- No speed is lost on a round trip, and not much is gained. -/
  roundTrip : ∀ rpm, 0 < rpm → rpm < poles.scale →
    let back := poles.rpmOfPeriod (poles.periodOfRpm rpm)
    rpm ≤ back ∧
      (back.toNat - rpm.toNat) * (poles.scale.toNat - rpm.toNat) ≤ rpm.toNat * rpm.toNat

theorem of?_count : of? poles.count = .ok poles :=
  dif_pos poles.positive

theorem rpmOfPeriod_thrice (word : UInt32) :
    poles.rpmOfPeriod (poles.periodOfRpm (poles.rpmOfPeriod word)) = poles.rpmOfPeriod word := by
  rw [← UInt32.toNat_inj, toNat_rpmOfPeriod, toNat_periodOfRpm, toNat_rpmOfPeriod, div_div_div]

/-- What is at most the speed at the limit has a period that is not shorter. -/
theorem le_periodOfRpm_of_le (hpos : 0 < rpm) (hle : rpm ≤ poles.rpmOfPeriod limit) :
    limit ≤ poles.periodOfRpm rpm := by
  have hlimit := poles.pos_of_rpmOfPeriod_pos (UInt32.lt_of_lt_of_le hpos hle)
  exact (poles.le_rpmOfPeriod_iff hpos hlimit).1 hle

end PoleCount

/-- A controller keeps to the limit that its top speed comes from. -/
theorem Controller.keepsToLimit {δ : Type} [MotorDriver δ] (c : Controller δ) :
    c.KeepsToLimit c.parameters.periodLimit := by
  constructor
  case setpoint =>
    intro inputs rpm now setpoint hpos
    have hsetpoint : setpoint = min rpm c.parameters.rpmMax := by
      rw [← run_parameters inputs c]
      rfl
    rw [hsetpoint] at hpos ⊢
    exact c.parameters.poles.le_periodOfRpm_of_le hpos Std.min_le_right
  case greatest => exact c.parameters.poles.isGreatest_rpmOfPeriod
  case unreachable =>
    intro hzero hlimit rpm hpos
    rw [← UInt32.not_le, ← c.parameters.poles.le_rpmOfPeriod_iff hpos hlimit, UInt32.not_le]
    exact UInt32.lt_of_le_of_lt (UInt32.le_of_eq hzero) hpos
  case unlimited =>
    intro hzero
    rw [Parameters.rpmMax, hzero]
    exact c.parameters.poles.rpmOfPeriod_zero

theorem PoleCount.reciprocal (poles : PoleCount) : poles.Reciprocal := by
  constructor
  case answers =>
    intro word
    rw [rpmOfPeriod?, periodOfRpm?, poles.of?_count]
    exact ⟨rfl, rfl⟩
  case scale => exact poles.toNat_scale
  case galois => exact fun rpm period => poles.le_rpmOfPeriod_iff
  case thrice => exact fun word => ⟨poles.rpmOfPeriod_thrice word, poles.rpmOfPeriod_thrice word⟩
  case roundTrip =>
    intro rpm hpos hslow
    dsimp only
    rw [UInt32.lt_iff_toNat_lt] at hpos hslow
    rw [UInt32.le_iff_toNat_le, poles.toNat_rpmOfPeriod, poles.toNat_periodOfRpm]
    exact round_trip_bounds hpos hslow

/-- The conversions have an answer exactly when there is a pole, and then they are
inverse to each other as far as whole numbers go; every controller that comes up
keeps to the period limit of its driver. -/
theorem conversions_reciprocal :
    (∀ word, rpmOfPeriod? 0 word = .error .notPositive ∧
      periodOfRpm? 0 word = .error .notPositive) ∧
    (∀ poles : PoleCount, poles.Reciprocal) ∧
    ∀ {δ : Type} [MotorDriver δ] {config : ControlConfig} {start : UInt64} {d up : δ}
      {c : Controller δ}, (Controller.init config start d).1 = .ok c →
        (MotorDriver.bringUp d).1 = .ok up → c.KeepsToLimit (MotorDriver.periodLimit up) := by
  refine ⟨fun _ => ⟨rfl, rfl⟩, PoleCount.reciprocal, ?_⟩
  intro δ _ config start d up c hinit hup
  obtain ⟨valid, up', hup', -, rfl⟩ := Controller.init_eq_ok_iff.1 hinit
  obtain rfl : up' = up := Except.ok.inj (hup'.symm.trans hup)
  exact Controller.keepsToLimit _

/-- The bench has a shortest period of 700, so a request for 30000 is cut to 20408. -/
theorem bench_keeps_to_limit :
    let bench := BenchDriver.standard "bench"
    let c := Controller.broughtUp .standard ControlConfig.standard_valid 0 bench
    (Controller.init .standard 0 bench).1 = .ok c ∧ (c.setRpm 30000 0).state.rpmSetpoint = 20408 ∧
      c.KeepsToLimit 700 := by
  intro bench c
  have hinit : (Controller.init .standard 0 bench).1 = .ok c :=
    Controller.init_eq_ok_iff.2 ⟨ControlConfig.standard_valid, bench, rfl, by decide +kernel, rfl⟩
  exact ⟨hinit, by decide +kernel, conversions_reciprocal.2.2 hinit rfl⟩

/-- A round trip at fourteen poles gains eight revolutions per minute. -/
example : rpmOfPeriod? 14 714 = .ok 20008 ∧ periodOfRpm? 14 20000 = .ok 714 := by
  decide +kernel

end MotorSupervisor
