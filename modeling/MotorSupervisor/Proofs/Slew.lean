import MotorSupervisor.Driver.Bench
import MotorSupervisor.Proofs.Binary.Neighbour
import MotorSupervisor.Proofs.DutyRange

/-!
# Slewed steps and their target

A jump that is too large for one direct step becomes a step of slope times
elapsed time.  Nothing compares this step with the distance that is left, so a
late cycle takes the duty past its target.  The new duty lies between the
present one and the target exactly when the step is a finite number whose exact
landing point is not rounded past the target.

**Definitions.**
* `ControlState.Oversteps`: a slewed step passes the target.

**Results.**
* `between_nextDuty_iff`: which steps stay on the way to the target.
* `not_oversteps_of_le_gap`: steps within the exact distance do.
* `slew_between_iff`: the slew limiter under a valid configuration.
-/

namespace MotorSupervisor

open Binary

namespace ControlState

variable (p : Parameters) (dt target : Single) (s : ControlState)

/-- A slewed step is not finite or lands clearly beyond the target. -/
def Oversteps : Prop :=
  ¬ (p.dutySlope * dt).isFinite ∨
    if target < s.duty then target.ClearlyBelow (s.landing p dt target)
    else target.ClearlyAbove (s.landing p dt target)

instance : Decidable (s.Oversteps p dt target) :=
  inferInstanceAs (Decidable (_ ∨ _))

variable {p dt target s}

theorem slope_mul_nonneg (hslope : 0 < p.dutySlope) (hdt : 0 ≤ dt)
    (hstep : (p.dutySlope * dt).isFinite) : 0 ≤ (p.dutySlope * dt).toRat := by
  have hneg := not_neg_mul (not_neg_of_pos hslope) (not_neg_of_nonneg hdt)
  rw [lt_iff_toRat hstep zero_mem.1, zero_mem.2] at hneg
  exact not_lt.1 hneg

/-- A finite slewed step leads towards the target and passes it exactly when it
lands clearly beyond it. -/
theorem between_of_step (hduty : s.duty.isFinite) (htarget : target.isFinite)
    (hslope : 0 < p.dutySlope) (hdt : 0 ≤ dt) (hstep : (p.dutySlope * dt).isFinite)
    (hjump : s.Jumps p target) :
    (s.nextDuty p dt target).Between s.duty target ↔ ¬ s.Oversteps p dt target := by
  have hnonneg := slope_mul_nonneg hslope hdt hstep
  have hduty' := isNaN_of_isFinite hduty
  have htarget' := isNaN_of_isFinite htarget
  rw [nextDuty, if_pos hjump, Oversteps, landing]
  by_cases hdown : target < s.duty
  · obtain ⟨z, hz⟩ := add_eq_round hduty (y := -(p.dutySlope * dt)) (by rwa [isFinite_neg])
    rw [toRat_neg, ← sub_eq_add_neg] at hz
    have hle : target ≤ s.duty := (not_lt_iff_le hduty' htarget').1 fun h => by
      rw [lt_iff] at h hdown
      omega
    have hleaves : s.duty + -(p.dutySlope * dt) ≤ s.duty := by
      rw [hz, round_le_iff hduty]
      exact not_clearlyAbove_of_le hduty (by linarith)
    rw [if_pos hdown, if_pos hdown, if_pos hdown, between_comm, between_iff_of_le hle,
      and_iff_left hleaves, hz, le_round_iff htarget]
    simp [hstep]
  · obtain ⟨z, hz⟩ := add_eq_round hduty hstep
    have hle : s.duty ≤ target := (not_lt_iff_le htarget' hduty').1 hdown
    have hleaves : s.duty ≤ s.duty + p.dutySlope * dt := by
      rw [hz, le_round_iff hduty]
      exact not_clearlyBelow_of_le hduty (by linarith)
    rw [if_neg hdown, if_neg hdown, if_neg hdown, between_iff_of_le hle,
      and_iff_right hleaves, hz, round_le_iff htarget]
    simp [hstep]

/-- The next duty lies on the way to the target unless a slewed step passes
it. -/
theorem between_nextDuty_iff (hduty : s.duty.isFinite) (htarget : target.isFinite)
    (hslope : 0 < p.dutySlope) (hdt : 0 ≤ dt) :
    (s.nextDuty p dt target).Between s.duty target ↔
      ¬ (s.Jumps p target ∧ s.Oversteps p dt target) := by
  by_cases hjump : s.Jumps p target
  · by_cases hstep : (p.dutySlope * dt).isFinite
    · rw [between_of_step hduty htarget hslope hdt hstep hjump]
      simp [hjump]
    · -- a step that is not finite leads to a duty that is not
      refine iff_of_false (fun h => ?_) (not_not.2 ⟨hjump, Or.inl hstep⟩)
      have hfin := h.isFinite hduty htarget
      rw [nextDuty, if_pos hjump] at hfin
      have hsigned := (isFinite_of_add hfin).2
      split at hsigned
      · exact hstep (by rwa [isFinite_neg] at hsigned)
      · exact hstep hsigned
  · have hdirect : s.nextDuty p dt target = target := if_neg hjump
    rw [hdirect]
    exact iff_of_true
      (between_right (isNaN_of_isFinite hduty) (isNaN_of_isFinite htarget)) fun h => hjump h.1

/-- A step within the exact distance does not pass the target. -/
theorem not_oversteps_of_le_gap (hduty : s.duty.isFinite) (htarget : target.isFinite)
    (hstep : (p.dutySlope * dt).isFinite)
    (hgap : (p.dutySlope * dt).toRat ≤ |target.toRat - s.duty.toRat|) :
    ¬ s.Oversteps p dt target := by
  rw [Oversteps, landing]
  rintro (hinf | hpast)
  · exact hinf hstep
  · by_cases hdown : target < s.duty
    · have hlt := (lt_iff_toRat htarget hduty).1 hdown
      rw [abs_of_neg (by linarith)] at hgap
      rw [if_pos hdown, if_pos hdown] at hpast
      exact not_clearlyBelow_of_le htarget (by linarith) hpast
    · have hle := not_lt.1 ((lt_iff_toRat htarget hduty).not.1 hdown)
      rw [abs_of_nonneg (by linarith)] at hgap
      rw [if_neg hdown, if_neg hdown] at hpast
      exact not_clearlyAbove_of_le htarget (by linarith) hpast

end ControlState

/-- Under a valid configuration the slew limiter leaves the duty between the
present one and the target, unless it takes a step that passes the target. -/
theorem slew_between_iff {config : ControlConfig} (valid : config.Valid) (limit : UInt32)
    {s : ControlState} {target dt : Single} (hduty : s.duty.isFinite)
    (htarget : target.isFinite) (hdt : 0 ≤ dt) :
    let p := Parameters.derive config valid.poles_pos limit
    (s.slew p dt target).1.duty.Between s.duty target ↔
      ¬ (s.Jumps p target ∧ s.Oversteps p dt target) := by
  intro p
  obtain ⟨-, -, -, hslope, -⟩ := ControlConfig.valid_iff.1 valid
  rw [ControlState.slew_eq]
  exact ControlState.between_nextDuty_iff hduty htarget hslope hdt

/-- An eighth of a second at the usual slope stays on the way from a quarter of
the duty to all of it. -/
theorem slew_between_in_time :
    let s := { ControlState.initial with duty := 0.25 }
    let p := Parameters.derive .standard ControlConfig.standard_valid.poles_pos 700
    s.duty.isFinite ∧ (1 : Single).isFinite ∧ (0 : Single) ≤ 0.125 ∧
      ((s.slew p 0.125 1).1.duty.Between s.duty 1 ↔
        ¬ (s.Jumps p 1 ∧ s.Oversteps p 0.125 1)) ∧
      s.Jumps p 1 ∧ ¬ s.Oversteps p 0.125 1 := by
  intro s p
  have hduty : s.duty.isFinite := by decide +kernel
  have htarget : (1 : Single).isFinite := by decide +kernel
  have hdt : (0 : Single) ≤ 0.125 := by decide +kernel
  exact ⟨hduty, htarget, hdt,
    slew_between_iff ControlConfig.standard_valid 700 hduty htarget hdt,
    by decide +kernel, by decide +kernel⟩

/-- A start at full duty, and half a second later a request for half of it. -/
def halfDuty : List (Input BenchDriver) :=
  [.setDuty 1 0, .cycle 0 .zero, .setDuty 0.5 5000000, .cycle 5000000 .zero]

/-- Half a second late, the slewed step from a sixth of the duty passes a half
of it. -/
theorem slew_passes_when_late :
    let c := Controller.broughtUp .standard ControlConfig.standard_valid 0 promptBench
    (Controller.init .standard 0 promptBench).1 = .ok c ∧
      ∃ t ∈ c.turns halfDuty, ∃ target ∈ t.target?,
        t.state.duty.isFinite ∧ target.isFinite ∧ t.elapsed.isFinite ∧ 0 ≤ t.elapsed ∧
          ¬ (t.state.slew t.before.parameters t.elapsed target).1.duty.Between
            t.state.duty target := by
  intro c
  refine ⟨Controller.init_eq_ok_iff.2
    ⟨ControlConfig.standard_valid, promptBench, rfl, by decide +kernel, rfl⟩, ?_⟩
  decide +kernel

end MotorSupervisor
