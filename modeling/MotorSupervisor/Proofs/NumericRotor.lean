import MotorSupervisor.Proofs.RotorSpeed
import MotorSupervisor.Proofs.SpinupTiming

/-!
# Rotors that stay numeric

The rules of the parameters let pass what is not a number, what is infinite,
and speeds that are too large to be multiplied by a time.  The rotor stays
within the numbers exactly when none of these is there and it stalls before it
would turn backwards, as it does with a stall speed that is not negative.

**Definitions.**
* `Rotor.Numeric`: speed and supply are numbers, and the speed is not negative.
* `SimulationConfig.StaysNumeric`: so they are after any calls.
* `SimulationConfig.StallsBelowZero`: no speed becomes negative without a
  stall.

**Results.**
* `within_after`: the speeds after any calls.
* `Within.numeric`: such speeds are numeric.
* `travel_of_staysNumeric`: the run that shows how large a speed may become.
* `staysNumeric_iff_of_nonneg`: which parameters stay numeric, if the stall speed is
  not negative.
* `staysNumeric_iff`: which parameters stay numeric.
-/

namespace MotorSupervisor

open Binary Format

namespace Rotor

/-- Speed and supply are numbers, and the speed is not negative. -/
structure Numeric (r : Rotor) : Prop where
  speed : r.speed.isNaN = false
  forward : ¬ r.speed < 0
  voltage : r.supply.voltage.isNaN = false
  current : r.supply.current.isNaN = false

end Rotor

namespace SimulationConfig

/-- The rotor stays numeric, whatever happens to it. -/
def StaysNumeric (c : SimulationConfig) : Prop :=
  ∀ calls : List RotorCall, (∀ x ∈ calls, x.Proper) → ((Rotor.atRest c).after calls).Numeric

/-- A speed that would be negative is below the stall speed. -/
def StallsBelowZero (c : SimulationConfig) : Prop :=
  ∀ calls : List RotorCall, (∀ x ∈ calls, x.Proper) →
    ((Rotor.atRest c).after calls).state = .running → ∀ elapsed : Span, elapsed.Fits →
      ((Rotor.atRest c).after calls).speedAfter elapsed < 0 →
        ((Rotor.atRest c).after calls).speedAfter elapsed < c.stallRpm

theorem stallsBelowZero_of_nonneg {c : SimulationConfig} (h : 0 ≤ c.stallRpm) :
    c.StallsBelowZero :=
  fun _ _ _ _ _ hneg => Binary.lt_of_lt_of_le hneg h

end SimulationConfig

namespace Rotor

section Sufficient

variable {c : SimulationConfig} {r : Rotor} {k : Nat} {calls : List RotorCall}

/-- The speeds after any calls. -/
theorem within_after (hvalid : c.Valid) (hbounded : c.Bounded)
    (hmost : c.topSpeed.toRat ≤ 2 ^ k) (hk : k + 1 < 128) (hstalls : c.StallsBelowZero)
    (hcalls : ∀ x ∈ calls, x.Proper) : ((atRest c).after calls).Within k := by
  induction calls using List.reverseRecOn with
  | nil => exact within_atRest k c
  | append_singleton calls x ih =>
      have hearlier : ∀ y ∈ calls, y.Proper :=
        fun y hy => hcalls y (List.mem_append_left _ hy)
      have hx : x.Proper := hcalls x (by simp)
      have hconfig : ((atRest c).after calls).config = c := config_after _ _
      rw [after_append]
      apply within_call (by rwa [hconfig]) (by rwa [hconfig]) (by rwa [hconfig]) hk hx
        (settled_after c calls) (ih hearlier)
      rintro elapsed rfl hrunning hneg
      rw [hconfig]
      exact hstalls calls hearlier hrunning elapsed hx hneg

theorem Within.current (h : r.Within k) (hbounded : r.config.Bounded) : r.current.isFinite := by
  unfold Rotor.current
  split
  · exact zero_mem.1
  · exact isFinite_mul_of_inUnit h.duty hbounded.fullLoadCurrent

theorem Within.numeric (h : r.Within k) (hvalid : r.config.Valid) (hbounded : r.config.Bounded) :
    r.Numeric := by
  have htop := (isFinite_of_mul hbounded.travel).1
  have hbus := (SimulationConfig.factors_of_topSpeed hvalid htop).1
  have hcurrent := h.current hbounded
  refine ⟨isNaN_of_isFinite h.speed.1.finite, ?_, ?_, isNaN_of_isFinite hcurrent⟩
  · rw [lt_iff_toRat h.speed.1.finite zero_mem.1, zero_mem.2, not_lt]
    exact h.speed.1.nonneg
  · exact isNaN_sub hbus.finite (isNaN_mul hbounded.sourceResistance hcurrent)

end Sufficient

section Necessary

variable {c : SimulationConfig} {r : Rotor} {elapsed : Span} {calls : List RotorCall}

/-- No more time is enough for an infinite speed to be a number no longer. -/
theorem isFinite_of_still (h : (r.speedAfter .zero).isNaN = false) : r.speed.isFinite := by
  have hstill : Span.zero.toSeconds.IsZero := by decide +kernel
  have hgap := isFinite_of_mul_zero hstill (isNaN_of_div (isNaN_of_add h).2).1
  have hspeed := (isFinite_of_add hgap).2
  rwa [isFinite_neg] at hspeed

theorem travel_of_isFinite (hzero : r.speed.IsZero) (h : (r.speedAfter .longest).isFinite) :
    (r.noLoadSpeed r.duty * Span.longest.toSeconds).isFinite := by
  have hproduct := isFinite_of_div (isFinite_of_add h).2
  obtain ⟨hgap, hdt⟩ := isFinite_of_mul hproduct
  have hspeed := (isFinite_of_add hgap).1
  exact (isFinite_mul_congr hgap hspeed hdt (toRat_sub_zero hspeed hzero).2).1 hproduct

theorem admissible_ends : (admissible 0).IsZero ∧ admissible 1 = 1 := by
  decide +kernel

theorem proper_append {x : RotorCall} (hcalls : ∀ y ∈ calls, y.Proper) (hx : x.Proper) :
    ∀ y ∈ calls ++ [x], y.Proper := by
  simpa [or_imp, forall_and] using ⟨hcalls, hx⟩

section Running

variable (hrunning : ((atRest c).after calls).state = .running)
include hrunning

theorem after_advance_of_fast
    (hfast : ¬ ((atRest c).after calls).speedAfter elapsed < c.stallRpm) :
    (atRest c).after (calls ++ [.advance elapsed]) =
      { (atRest c).after calls with speed := ((atRest c).after calls).speedAfter elapsed } := by
  have hconfig : ((atRest c).after calls).config = c := config_after _ _
  rw [after_append]
  exact (advance_of_running hrunning).trans (if_neg (by rwa [hconfig]))

variable (h : c.StaysNumeric) (hcalls : ∀ x ∈ calls, x.Proper) (hfits : elapsed.Fits)
include h hcalls hfits

/-- A speed at which the rotor does not stall is its next speed. -/
theorem numeric_speedAfter (hfast : ¬ ((atRest c).after calls).speedAfter elapsed < c.stallRpm) :
    (((atRest c).after calls).speedAfter elapsed).isNaN = false ∧
      ¬ ((atRest c).after calls).speedAfter elapsed < 0 := by
  have hnext := h _ (proper_append hcalls (x := .advance elapsed) hfits)
  rw [after_advance_of_fast hrunning hfast] at hnext
  exact ⟨hnext.speed, hnext.forward⟩

/-- What would be a speed is a number, also where the rotor stalls. -/
theorem isNaN_speedAfter : (((atRest c).after calls).speedAfter elapsed).isNaN = false := by
  by_cases hslow : ((atRest c).after calls).speedAfter elapsed < c.stallRpm
  · exact ((lt_iff _ _).1 hslow).1
  · exact (numeric_speedAfter hrunning h hcalls hfits hslow).1

/-- A stall is below the stall speed, and what the rotor keeps stays a number
after no more time. -/
theorem isFinite_speedAfter (hneg : ¬ ((atRest c).after calls).speedAfter elapsed < 0) :
    (((atRest c).after calls).speedAfter elapsed).isFinite := by
  by_cases hslow : ((atRest c).after calls).speedAfter elapsed < c.stallRpm
  · exact isFinite_of_lt hneg hslow
  · have hkept := after_advance_of_fast hrunning hslow
    have hzero : Span.zero.Fits := by decide
    have hfinite := isFinite_of_still (isNaN_speedAfter (by rw [hkept]; exact hrunning) h
      (proper_append hcalls (x := .advance elapsed) hfits) hzero)
    rwa [hkept] at hfinite

end Running

theorem isZero_noLoadSpeed {duty : Single} (hzero : duty.IsZero)
    (h : (r.noLoadSpeed duty).isNaN = false) : (r.noLoadSpeed duty).IsZero := by
  have hvoltage := hzero.mul (isFinite_of_zero_mul hzero (isNaN_of_mul h).1)
  exact hvoltage.mul (isFinite_of_zero_mul hvoltage h)

theorem not_neg_noLoadSpeed (hvalid : r.config.Valid) {duty : Single} (hduty : ¬ duty < 0) :
    ¬ r.noLoadSpeed duty < 0 := by
  obtain ⟨hbus, hkv, -⟩ := SimulationConfig.valid_iff.1 hvalid
  exact not_neg_mul (not_neg_mul hduty fun hlt => hbus (Binary.le_of_lt hlt))
    fun hlt => hkv (Binary.le_of_lt hlt)

/-- No speed falls from zero. -/
theorem not_neg_speedAfter (hvalid : r.config.Valid) (hzero : r.speed.IsZero)
    (hduty : ¬ r.duty < 0) (hfits : elapsed.Fits) : ¬ r.speedAfter elapsed < 0 := by
  obtain ⟨hdt, hweight, hpos, -⟩ := weight_spec hvalid hfits
  have hpos' : 0 < r.timeConstant.toSeconds + elapsed.toSeconds := by
    rwa [lt_iff_toRat zero_mem.1 hweight.finite, zero_mem.2]
  have hgap := not_neg_add (not_neg_noLoadSpeed hvalid hduty) hzero.not_neg_neg
  exact not_neg_add (not_neg_of_nonneg hzero.1)
    (not_neg_div (not_neg_mul hgap hdt.not_neg) hpos')

/-- A start without speed and at full duty leads to the top speed, which can
therefore be multiplied by any time. -/
theorem travel_of_staysNumeric (hvalid : c.Valid) (h : c.StaysNumeric) :
    (c.topSpeed * Span.longest.toSeconds).isFinite := by
  obtain ⟨hzero, hone⟩ := admissible_ends
  have hfits := Span.fits_longest
  have hspun := after_spinup (r := atRest c) 1 0 false rfl (Span.fits_ofMillis _).le_longest
  have hproper : ∀ x ∈ [.command (.start 1 0 false), RotorCall.advance .longest], x.Proper :=
    List.forall_mem_cons.2 ⟨⟨isNaN_one, isNaN_zero⟩, List.forall_mem_singleton.2 hfits⟩
  have hspeed := isZero_noLoadSpeed hzero (by simpa [hspun] using (h _ hproper).speed)
  have hrunning : ((atRest c).after [.command (.start 1 0 false), .advance .longest]).state =
      .running := by rw [hspun]
  have hfinite := isFinite_speedAfter hrunning h hproper hfits (by
    rw [hspun]
    exact not_neg_speedAfter hvalid hspeed (by rw [hone]; exact not_neg_ofNat 1) hfits)
  rw [hspun] at hfinite
  have htravel := travel_of_isFinite hspeed hfinite
  rwa [hone] at htravel

theorem bounded_of_staysNumeric (hvalid : c.Valid) (h : c.StaysNumeric) : c.Bounded where
  travel := travel_of_staysNumeric hvalid h
  sourceResistance := by
    have hrest := (h [] fun _ hx => absurd hx List.not_mem_nil).voltage
    exact isFinite_of_mul_zero isZero_zero (isNaN_of_sub hrest).2
  fullLoadCurrent := by
    have hstarted := (h [.command (.start 0 0 false)]
      (List.forall_mem_singleton.2 ⟨isNaN_zero, isNaN_zero⟩)).current
    exact isFinite_of_zero_mul admissible_ends.1 hstarted

theorem stallsBelowZero_of_staysNumeric (h : c.StaysNumeric) : c.StallsBelowZero := by
  intro calls hcalls hrunning elapsed hfits hneg
  by_contra hfast
  exact (numeric_speedAfter hrunning h hcalls hfits hfast).2 hneg

end Necessary

/-- Bounded parameters are enough for a rotor that stalls before it would turn
backwards. -/
theorem staysNumeric_of_bounded {c : SimulationConfig} (hvalid : c.Valid) (hbounded : c.Bounded)
    (hstalls : c.StallsBelowZero) : c.StaysNumeric := by
  intro calls hcalls
  have hconfig : ((atRest c).after calls).config = c := config_after _ _
  have hwithin := within_after hvalid hbounded (SimulationConfig.topSpeed_le hvalid hbounded)
    (by norm_num) hstalls hcalls
  exact hwithin.numeric (by rwa [hconfig]) (by rwa [hconfig])

/-- With a stall speed that is not negative, nothing but the parameters decides. -/
theorem staysNumeric_iff_of_nonneg {c : SimulationConfig} (hvalid : c.Valid)
    (hstall : 0 ≤ c.stallRpm) : c.StaysNumeric ↔ c.Bounded :=
  ⟨bounded_of_staysNumeric hvalid, fun hbounded => staysNumeric_of_bounded hvalid hbounded
    (SimulationConfig.stallsBelowZero_of_nonneg hstall)⟩

/-- Accepted parameters keep the rotor numeric exactly when they are bounded and
the rotor stalls before it would turn backwards.  The latter is a condition on what
the rotor does, `StallsBelowZero`; a stall speed that is not negative implies it, so
that the first alternative is a case of the second one, and the one that can be
read off the parameters. -/
theorem staysNumeric_iff {c : SimulationConfig} (hvalid : c.Valid) :
    c.StaysNumeric ↔ c.Bounded ∧ (0 ≤ c.stallRpm ∨ c.StallsBelowZero) := by
  constructor
  · intro h
    exact ⟨bounded_of_staysNumeric hvalid h, Or.inr (stallsBelowZero_of_staysNumeric h)⟩
  · rintro ⟨hbounded, hstalls⟩
    exact staysNumeric_of_bounded hvalid hbounded
      (hstalls.elim SimulationConfig.stallsBelowZero_of_nonneg id)

/-- A negative stall speed lets a rotor turn backwards by what is rounded. -/
example :
    ((atRest { SimulationConfig.standard with stallRpm := -1 }).after
      [.command (.start 0.5 0.5 false), .advance (.ofMillis 200), .command (.setDuty 0),
        .advance (.ofSeconds 25000000)]).speed < 0 := by
  decide +kernel

theorem staysNumeric_standard :
    SimulationConfig.standard.Valid ∧ SimulationConfig.standard.Bounded ∧
      0 ≤ SimulationConfig.standard.stallRpm ∧ SimulationConfig.standard.StaysNumeric := by
  obtain ⟨hvalid, hbounded, hstall⟩ := SimulationConfig.standard_spec
  exact ⟨hvalid, hbounded, hstall, (staysNumeric_iff hvalid).2 ⟨hbounded, Or.inl hstall⟩⟩

/-- A motor whose velocity constant is not a number. -/
def unknownMotor : SimulationConfig :=
  { SimulationConfig.standard with kv := .nan }

/-- The parameters are accepted, and the speed is lost with the spin-up. -/
theorem speed_lost_after_spinup :
    unknownMotor.Valid ∧
      ((atRest unknownMotor).after
        [.command (.start 1 1 false), .advance (.ofMillis 200)]).speed.isNaN = true ∧
      ¬ unknownMotor.StaysNumeric := by
  have hlost : unknownMotor.Valid ∧ ((atRest unknownMotor).after
      [.command (.start 1 1 false), .advance (.ofMillis 200)]).speed.isNaN = true := by
    decide +kernel
  refine ⟨hlost.1, hlost.2, fun h => ?_⟩
  have hproper : ∀ x ∈ [.command (.start 1 1 false), RotorCall.advance (.ofMillis 200)],
      x.Proper :=
    List.forall_mem_cons.2 ⟨⟨isNaN_one, isNaN_one⟩,
      List.forall_mem_singleton.2 (show Span.Fits _ by decide)⟩
  exact absurd (h _ hproper).speed (by simp [hlost.2])

end Rotor
end MotorSupervisor
