import MotorSupervisor.Proofs.Slew

/-!
# Ramps to a steady setpoint

While a motor runs in open loop at its period limit or slower, and no cycle is
so late that its slewed step exceeds the step limit, the duty goes straight to
the setpoint and stays there.  A slewed step is then shorter than the jump that
caused it, so that it cannot pass the setpoint, and the first jump within the
step limit ends on the setpoint exactly.

Only the duty is handed from one cycle to the next.  Whatever else happens
between two cycles, such as a new reading of the bus, is left open.

**Definitions.**
* `Pass`: one cycle of a running motor; `Consecutive`: passes one after the other.
* `Pass.Steady`: the conditions of a steady setpoint.

**Results.**
* `between_of_steady`: one pass keeps on the way to the setpoint.
* `Consecutive.forall_duty`: what every pass keeps, holds before every pass.
* `consecutive_turns`: the turns of a controller are consecutive passes.
* `steady_ramp`: the whole ramp.
-/

namespace MotorSupervisor

open Binary

/-- One cycle of a running motor. -/
structure Pass where
  before : ControlState
  /-- Seconds since the previous cycle. -/
  dt : Single
  /-- Commutation period that the cycle reads. -/
  period : UInt32

namespace Pass

/-- What the cycle decides. -/
def result (p : Parameters) (pass : Pass) : CycleResult :=
  pass.before.cycle p pass.dt ⟨.running, pass.period⟩

/-- The duty that the cycle leaves. -/
def duty (p : Parameters) (pass : Pass) : Single :=
  (pass.result p).state.duty

/-- A cycle in open loop, slow enough not to be capped and not too late. -/
structure Steady (p : Parameters) (target : Single) (pass : Pass) : Prop where
  mode : pass.before.mode = .openLoop
  setpoint : pass.before.dutySetpoint = target
  moving : pass.period ≠ 0
  uncapped : p.periodLimit ≤ pass.period
  forward : 0 ≤ pass.dt
  inTime : p.dutySlope * pass.dt ≤ p.dutyStepMax

variable {p : Parameters} {target : Single} {pass : Pass}

/-- A steady pass drives the motor towards the setpoint. -/
theorem drives_of_steady (hpos : 0 < target) (hfin : target.isFinite)
    (h : pass.Steady p target) :
    pass.duty p = pass.before.nextDuty p pass.dt target ∧
      (pass.result p).outcome =
        .driving (pass.duty p) (decide (pass.before.Jumps p target)) ∧
      (pass.result p).command = some (.setDuty (pass.duty p)) ∧
      (pass.result p).state.limits.accel = decide (pass.before.Jumps p target) := by
  have hcap : ¬ pass.before.Capped p pass.period := fun hcap =>
    UInt32.not_lt.2 h.uncapped hcap.1
  have htarget : pass.before.target? p pass.period = some target :=
    ControlState.target?_eq_some_iff.2 ⟨h.mode, h.moving, hfin,
      Or.inr ⟨hcap, by rwa [h.setpoint], h.setpoint.symm⟩⟩
  rw [duty, result, ControlState.cycle_drive rfl htarget]
  exact ⟨rfl, rfl, rfl, rfl⟩

/-- A slewed step in time is shorter than the jump that caused it. -/
theorem not_oversteps_of_steady (hslope : 0 < p.dutySlope) (hduty : pass.before.duty.isFinite)
    (hfin : target.isFinite) (h : pass.Steady p target) (hjump : pass.before.Jumps p target) :
    ¬ pass.before.Oversteps p pass.dt target := by
  have hneg := not_neg_mul (not_neg_of_pos hslope) (not_neg_of_nonneg h.forward)
  have hshort : p.dutySlope * pass.dt < (target - pass.before.duty).abs :=
    Binary.lt_of_le_of_lt h.inTime hjump
  have hstep : (p.dutySlope * pass.dt).isFinite := by
    have hbound := natAbs_ordinal_le (target - pass.before.duty).abs
    rw [lt_iff] at hshort
    have hnonneg := ((not_neg_iff _).1 hneg).resolve_left (by simp [hshort.1])
    rw [isFinite_iff hshort.1]
    omega
  exact ControlState.not_oversteps_of_le_gap hduty hfin hstep
    (toRat_le_of_lt_abs_sub hstep hfin hduty hshort)

/-- A steady pass keeps on the way to the setpoint. -/
theorem between_of_steady (hslope : 0 < p.dutySlope) (hpos : 0 < target)
    (hfin : target.isFinite) (hduty : pass.before.duty.isFinite) (h : pass.Steady p target) :
    (pass.duty p).Between pass.before.duty target := by
  rw [(drives_of_steady hpos hfin h).1]
  refine (ControlState.between_nextDuty_iff hduty hfin hslope h.forward).2 ?_
  rintro ⟨hjump, hpast⟩
  exact not_oversteps_of_steady hslope hduty hfin h hjump hpast

/-- A direct step ends on the setpoint. -/
theorem duty_of_not_jumps (hpos : 0 < target) (hfin : target.isFinite)
    (h : pass.Steady p target) (hjump : ¬ pass.before.Jumps p target) :
    pass.duty p = target := by
  rw [(drives_of_steady hpos hfin h).1]
  exact if_neg hjump

end Pass

/-- On the setpoint there is nothing to jump. -/
theorem ControlState.not_jumps_of_duty_eq {p : Parameters} {target : Single} {s : ControlState}
    (hmax : 0 ≤ p.dutyStepMax) (hfin : target.isFinite) (h : s.duty = target) :
    ¬ s.Jumps p target := by
  obtain ⟨z, hz⟩ := sub_eq_round hfin hfin
  rw [Jumps, h, hz, sub_self, lt_iff, ordinal_abs, ordinal_round, Format.nearest_zero]
  rw [le_iff, ordinal_zero] at hmax
  simp only [abs_zero]
  omega

/-- Passes one after the other: each begins with the duty that the previous one
left. -/
inductive Consecutive (p : Parameters) : Single → List Pass → Prop
  | nil {duty : Single} : Consecutive p duty []
  | cons {pass : Pass} {rest : List Pass} :
      Consecutive p (pass.duty p) rest → Consecutive p pass.before.duty (pass :: rest)

namespace Consecutive

variable {p : Parameters} {duty : Single} {passes past rest : List Pass}

/-- What every pass keeps of the duty holds before every pass. -/
theorem forall_duty {I : Single → Prop} (h : Consecutive p duty passes) (hstart : I duty)
    (hkeeps : ∀ pass ∈ passes, I pass.before.duty → I (pass.duty p)) :
    ∀ pass ∈ passes, I pass.before.duty := by
  induction h with
  | nil => simp
  | cons _ ih =>
      rw [List.forall_mem_cons] at hkeeps ⊢
      exact ⟨hstart, ih (hkeeps.1 hstart) hkeeps.2⟩

theorem of_append (h : Consecutive p duty (past ++ rest)) :
    ∃ later, Consecutive p later rest := by
  induction past generalizing duty with
  | nil => exact ⟨duty, h⟩
  | cons pass past ih =>
      cases h with
      | cons hrest => exact ih hrest

end Consecutive

section Run

variable {δ : Type} [MotorDriver δ]

/-- A turn as a pass, which it is if the motor runs. -/
def Turn.pass (t : Turn δ) : Pass :=
  ⟨t.state, t.elapsed, t.readings.period⟩

theorem Turn.result_pass {t : Turn δ} (hrun : t.readings.runState = .running) :
    t.pass.result t.before.parameters = t.result := by
  have hreadings : t.readings = ⟨.running, t.readings.period⟩ := by
    rw [← hrun]
  rw [Pass.result, Turn.result, hreadings]
  rfl

/-- Between two turns nothing touches the duty. -/
theorem consecutive_turns (inputs : List (Input (MotorDriver.Change δ))) {c : Controller δ}
    (hrun : ∀ t ∈ c.turns inputs, t.readings.runState = .running) :
    Consecutive c.parameters c.state.duty ((c.turns inputs).map Turn.pass) := by
  induction inputs generalizing c with
  | nil => exact .nil
  | cons input inputs ih =>
      rcases Controller.turns_cons input inputs c with ⟨hquiet, hcons⟩ | ⟨t, rfl, hafter, -, hcons⟩
      · rw [hcons] at hrun ⊢
        have hrest := ih hrun
        have hkept := Controller.kept_of_quiet hquiet
        rwa [hkept.parameters, hkept.duty] at hrest
      · rw [hcons, List.forall_mem_cons] at hrun
        have hrest := ih hrun.2
        rw [hcons, List.map_cons]
        have hduty : t.pass.duty t.before.parameters = (t.before.step input).1.state.duty := by
          rw [Pass.duty, Turn.result_pass hrun.1, ← hafter, Turn.after_state]
        have hstart : t.before.state.duty = t.pass.before.duty := t.state_duty.symm
        rw [← hafter, Turn.after_parameters, hafter, ← hduty] at hrest
        rw [hstart]
        exact .cons hrest

end Run

/-- The duty goes straight to a setpoint and stays there. -/
structure RampsSteadily (p : Parameters) (target duty : Single) (passes : List Pass) :
    Prop where
  /-- Every pass drives the motor, and reports a slewed step and its flag when
  the jump exceeds the step limit. -/
  driving : ∀ pass ∈ passes,
    (pass.result p).outcome =
        .driving (pass.duty p) (decide (p.dutyStepMax < (target - pass.before.duty).abs)) ∧
      (pass.result p).command = some (.setDuty (pass.duty p)) ∧
      (pass.result p).state.limits.accel =
        decide (p.dutyStepMax < (target - pass.before.duty).abs)
  /-- From below, the duty never falls and never passes the setpoint. -/
  rising : duty ≤ target → ∀ pass ∈ passes,
    pass.before.duty ≤ pass.duty p ∧ pass.duty p ≤ target
  /-- From above, the duty never rises and never passes the setpoint. -/
  falling : target ≤ duty → ∀ pass ∈ passes,
    target ≤ pass.duty p ∧ pass.duty p ≤ pass.before.duty
  /-- From the first direct step on, the duty is the setpoint. -/
  settled : ∀ past pass future, passes = past ++ pass :: future →
    ¬ p.dutyStepMax < (target - pass.before.duty).abs →
      ∀ later ∈ pass :: future,
        (later.result p).outcome = .driving target false ∧ later.duty p = target ∧
          (later.result p).state.limits.accel = false

section Ramp

variable {p : Parameters} {target duty : Single} {passes : List Pass}

/-- Every pass of a steady run keeps on the way to the setpoint. -/
theorem between_run (hslope : 0 < p.dutySlope) (hpos : 0 < target) (hfin : target.isFinite)
    (hrun : Consecutive p duty passes) (hsteady : ∀ pass ∈ passes, pass.Steady p target)
    (hduty : duty.isFinite) :
    ∀ pass ∈ passes, (pass.duty p).Between pass.before.duty target := by
  have hstep : ∀ pass ∈ passes, pass.before.duty.isFinite →
      (pass.duty p).Between pass.before.duty target := by
    intro pass hpass hbefore
    exact Pass.between_of_steady hslope hpos hfin hbefore (hsteady pass hpass)
  have hfinite := hrun.forall_duty (I := (·.isFinite)) hduty fun pass hpass hbefore =>
    (hstep pass hpass hbefore).isFinite hbefore hfin
  exact fun pass hpass => hstep pass hpass (hfinite pass hpass)

/-- After a direct step all steps are direct, and the duty is the setpoint. -/
theorem settled_run (hmax : 0 ≤ p.dutyStepMax) (hpos : 0 < target) (hfin : target.isFinite)
    {pass : Pass} {future : List Pass} (hrun : Consecutive p duty (pass :: future))
    (hsteady : ∀ later ∈ pass :: future, later.Steady p target)
    (hjump : ¬ pass.before.Jumps p target) :
    ∀ later ∈ pass :: future, ¬ later.before.Jumps p target ∧ later.duty p = target := by
  cases hrun with
  | cons hrest =>
      rw [List.forall_mem_cons] at hsteady ⊢
      have harrived := Pass.duty_of_not_jumps hpos hfin hsteady.1 hjump
      refine ⟨⟨hjump, harrived⟩, ?_⟩
      have hstays : ∀ later ∈ future, later.before.duty = target →
          ¬ later.before.Jumps p target ∧ later.duty p = target := by
        intro later hlater hbefore
        have hdirect := ControlState.not_jumps_of_duty_eq hmax hfin hbefore
        exact ⟨hdirect, Pass.duty_of_not_jumps hpos hfin (hsteady.2 later hlater) hdirect⟩
      have hbefore := hrest.forall_duty (I := (· = target)) harrived fun later hlater h =>
        (hstays later hlater h).2
      exact fun later hlater => hstays later hlater (hbefore later hlater)

end Ramp

/-- Under a valid configuration, a running motor whose cycles come in time is
ramped straight to a steady setpoint. -/
theorem steady_ramp {config : ControlConfig} (valid : config.Valid) (limit : UInt32)
    {target duty : Single} (hpos : 0 < target) (hone : target ≤ 1) (hduty : duty.InUnit)
    {passes : List Pass}
    (hrun : Consecutive (Parameters.derive config valid.poles_pos limit) duty passes)
    (hsteady : ∀ pass ∈ passes,
      pass.Steady (Parameters.derive config valid.poles_pos limit) target) :
    RampsSteadily (Parameters.derive config valid.poles_pos limit) target duty passes := by
  obtain ⟨-, -, hmax, hslope, -⟩ := ControlConfig.valid_iff.1 valid
  have hunit : target.InUnit := by
    rw [lt_iff, ordinal_zero] at hpos
    rw [le_iff] at hone
    exact inUnit_iff.2 ⟨hone.1, hpos.2.2.le, hone.2.2⟩
  have hbetween := between_run hslope hpos hunit.isFinite hrun hsteady hduty.isFinite
  constructor
  case driving =>
    intro pass hpass
    exact (Pass.drives_of_steady hpos hunit.isFinite (hsteady pass hpass)).2
  case rising =>
    intro hle
    have hbelow := hrun.forall_duty (I := (· ≤ target)) hle fun pass hpass h =>
      ((between_iff_of_le h).1 (hbetween pass hpass)).2
    exact fun pass hpass => (between_iff_of_le (hbelow pass hpass)).1 (hbetween pass hpass)
  case falling =>
    intro hle
    have habove := hrun.forall_duty (I := (target ≤ ·)) hle fun pass hpass h =>
      ((between_iff_of_le h).1 (between_comm.1 (hbetween pass hpass))).1
    exact fun pass hpass =>
      (between_iff_of_le (habove pass hpass)).1 (between_comm.1 (hbetween pass hpass))
  case settled =>
    rintro past pass future rfl hjump later hlater
    obtain ⟨_, hfuture⟩ := hrun.of_append
    have hsteady' := fun later hlater => hsteady later (List.mem_append_right past hlater)
    obtain ⟨hdirect, harrived⟩ := settled_run (show 0 ≤ config.dutyStepMax from hmax) hpos
      hunit.isFinite hfuture hsteady' hjump later hlater
    obtain ⟨-, houtcome, -, haccel⟩ :=
      Pass.drives_of_steady hpos hunit.isFinite (hsteady' later hlater)
    rw [harrived, decide_eq_false hdirect] at houtcome
    rw [decide_eq_false hdirect] at haccel
    exact ⟨houtcome, harrived, haccel⟩

/-- A request for all of the duty, and a motor that runs at a sixth of it. -/
def rampStart : Controller BenchDriver :=
  ((Controller.broughtUp .standard ControlConfig.standard_valid 0 promptBench).run
    [.setDuty 1 0, .cycle 0 .zero]).1

/-- Ten cycles, a tenth of a second apart. -/
def tenCycles : List (Input BenchDriver) :=
  (List.range 10).map fun n => .cycle (UInt64.ofNat (1000000 * (n + 1))) .zero

/-- Seven slewed steps and three direct ones. -/
theorem steady_ramp_in_ten_cycles :
    let p := Parameters.derive .standard ControlConfig.standard_valid.poles_pos 700
    let passes := (rampStart.turns tenCycles).map Turn.pass
    (0 : Single) < 1 ∧ (1 : Single) ≤ 1 ∧ rampStart.state.duty.InUnit ∧
      Consecutive p rampStart.state.duty passes ∧ (∀ pass ∈ passes, pass.Steady p 1) ∧
      RampsSteadily p 1 rampStart.state.duty passes ∧
      passes.map (fun pass => decide (pass.before.Jumps p 1)) =
        [true, true, true, true, true, true, true, false, false, false] := by
  intro p passes
  have hparameters : rampStart.parameters = p := Controller.run_parameters _ _
  have hturns : ∀ t ∈ rampStart.turns tenCycles, t.readings.runState = .running := by
    decide +kernel
  have hrun : Consecutive p rampStart.state.duty passes := by
    rw [← hparameters]
    exact @consecutive_turns BenchDriver _ tenCycles rampStart hturns
  have hconditions : ∀ pass ∈ passes, pass.before.mode = .openLoop ∧
      pass.before.dutySetpoint = 1 ∧ pass.period ≠ 0 ∧ p.periodLimit ≤ pass.period ∧
        0 ≤ pass.dt ∧ p.dutySlope * pass.dt ≤ p.dutyStepMax := by
    decide +kernel
  have hsteady : ∀ pass ∈ passes, pass.Steady p 1 := by
    intro pass hpass
    obtain ⟨hmode, hsetpoint, hmoving, huncapped, hforward, hinTime⟩ := hconditions pass hpass
    exact ⟨hmode, hsetpoint, hmoving, huncapped, hforward, hinTime⟩
  have hpos : (0 : Single) < 1 := by decide +kernel
  have hone : (1 : Single) ≤ 1 := by decide +kernel
  have hduty : rampStart.state.duty.InUnit := by decide +kernel
  exact ⟨hpos, hone, hduty, hrun, hsteady,
    steady_ramp ControlConfig.standard_valid 700 hpos hone hduty hrun hsteady, by decide +kernel⟩

end MotorSupervisor
