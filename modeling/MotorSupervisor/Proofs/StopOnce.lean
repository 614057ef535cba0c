import MotorSupervisor.Proofs.CommandDiscipline
import MotorSupervisor.Proofs.StartGate

/-!
# A stop happens once

A cycle that stops the motor leaves nothing behind: no limit, no duty, no
setpoint.  The next cycle finds the driver at rest, arms the spin-up duty and
asks the start gate again, and so does every cycle after it.  Without a demand
the gate is shut in either mode, as long as its threshold is positive, so
nothing is commanded until a setter is called.

The invariant is `Resting`: the driver is at rest and there is no demand.  It
says nothing of the filtered voltage, which every cycle may change.

**Results.**
* `stopsCompletely`: the state and the driver after a stop.
* `wantsStart_eq_false`: a shut gate.
* `resting_turn`, `resting_step`: the invariant, and the silence it brings.
* `stop_once`: a complete stop, and no command after it.
-/

namespace MotorSupervisor

open Binary

section Driver

variable (δ : Type) [MotorDriver δ]

/-- A stop brings the driver to rest, and being read leaves it there. -/
structure RestsAfterStop : Prop where
  stop : ∀ d : δ, MotorDriver.runState (MotorDriver.perform .stop d).1 = .idle
  settle : ∀ d : δ, MotorDriver.runState d = .idle →
    MotorDriver.runState (MotorDriver.settle d).1 = .idle

/-- A cycle, or a change of the driver that does not take it out of rest. -/
def KeepsRest : Input (MotorDriver.Change δ) → Prop
  | .cycle _ _ => True
  | .change change => ∀ d : δ, MotorDriver.runState d = .idle →
      MotorDriver.runState (MotorDriver.change change d).1 = .idle
  | _ => False

end Driver

variable {δ : Type} [MotorDriver δ]

theorem observe_of_rest (hrests : RestsAfterStop δ) (mode : Mode) {d : δ}
    (h : MotorDriver.runState d = .idle) :
    (MotorDriver.observe mode d).2.1.runState = .idle ∧
      MotorDriver.runState (MotorDriver.observe mode d).1 = .idle := by
  have hfirst := hrests.settle d h
  rw [runState_observe, observe_of_not_running (by simp [hfirst])]
  exact ⟨hfirst, hfirst⟩

namespace Turn

/-- A turn stops the motor, and nothing of the drive is left. -/
structure StopsCompletely (t : Turn δ) : Prop where
  command : t.did.command = some .stop
  driver : t.after.driver = (MotorDriver.perform .stop t.observed).1
  limits : t.after.state.limits = .none
  duty : t.after.state.duty = 0
  dutySetpoint : t.after.state.dutySetpoint = 0
  rpmSetpoint : t.after.state.rpmSetpoint = 0
  mode : t.after.state.mode = t.before.state.mode

theorem stopsCompletely {t : Turn δ} {unavailable : Bool}
    (h : t.did.outcome = some (.stopped unavailable)) : t.StopsCompletely := by
  have houtcome : t.result.outcome = .stopped unavailable := Option.some.inj h
  have hcommand : t.result.command = some .stop := by
    rw [t.disciplined.command, houtcome]
    rfl
  have hreset : t.after.state = t.state.reset := by
    rw [after_state, result]
    exact ControlState.state_of_stop hcommand
  constructor
  case command => exact hcommand
  case driver =>
    rw [after_driver, hcommand]
    rfl
  case mode => exact t.setpointsKept_after.1
  all_goals
    rw [hreset]
    rfl

end Turn

/-- The start gate is shut to a state without a demand: the lowest speed, or
the spin-up duty of this cycle, is positive. -/
def ControlState.GateShut (p : Parameters) (s : ControlState) : Prop :=
  (s.mode = .rpmTarget ∧ 1 ≤ p.rpmMin) ∨ (s.mode = .openLoop ∧ 0 < s.spinupDuty p)

theorem wantsStart_eq_false {p : Parameters} {s : ControlState} (hnone : s.NoDemand)
    (hgate : s.GateShut p) : s.wantsStart p = false := by
  unfold ControlState.wantsStart
  obtain ⟨hmode, hmin⟩ | ⟨hmode, hspinup⟩ := hgate
  · rw [hmode]
    dsimp only
    rw [hnone.2 hmode, decide_eq_false_iff_not, UInt32.not_le]
    exact UInt32.lt_iff_toNat_lt.2 (UInt32.le_iff_toNat_le.1 hmin)
  · -- a setpoint that is not positive lies below a positive duty
    have hpos := hnone.1 hmode
    rw [hmode]
    dsimp only
    rw [decide_eq_false_iff_not]
    intro hle
    rw [pos_iff] at hpos hspinup
    rw [le_iff] at hle
    exact hpos ⟨hle.2.1, hspinup.2.trans_le hle.2.2⟩

structure Resting (c : Controller δ) : Prop where
  driver : MotorDriver.runState c.driver = .idle
  demand : c.state.NoDemand

theorem resting_turn (hrests : RestsAfterStop δ) {t : Turn δ} (h : Resting t.before)
    (hgate : t.state.GateShut t.before.parameters) :
    t.did.command = none ∧ Resting t.after := by
  have hdriver := hrests.settle _ h.driver
  obtain ⟨hreading, hobserved⟩ := observe_of_rest hrests t.state.mode hdriver
  have hcommand : t.result.command = none := by
    have hrun : t.readings.runState = .idle := hreading
    have hwants := wantsStart_eq_false (Turn.noDemand_state h.demand) hgate
    rw [Turn.result, ControlState.cycle_idle hrun]
    simp [hwants]
  refine ⟨hcommand, ?_, Turn.noDemand_turn h.demand⟩
  rw [Turn.after_driver, hcommand]
  exact hobserved

theorem resting_step {input : Input (MotorDriver.Change δ)} {c : Controller δ}
    (hquiet : Controller.Quiet input c) (hkeeps : KeepsRest δ input) (h : Resting c) :
    (c.step input).2.command = none ∧ Resting (c.step input).1 := by
  cases input with
  | setDuty duty now => exact hkeeps.elim
  | setRpm rpm now => exact hkeeps.elim
  | cycle now body =>
      have hidle : ¬ c.active = true := by simpa [Controller.Quiet] using hquiet
      rw [Controller.step, if_neg hidle]
      exact ⟨rfl, h⟩
  | change change => exact ⟨rfl, hkeeps _ h.driver, h.demand⟩
  | shutdown => exact hkeeps.elim

/-- At rest nothing is commanded, for as long as the gate is shut. -/
theorem resting_run (hrests : RestsAfterStop δ) (inputs : List (Input (MotorDriver.Change δ)))
    {c : Controller δ} (h : Resting c) (hinputs : ∀ input ∈ inputs, KeepsRest δ input)
    (hgate : ∀ t ∈ c.turns inputs, t.state.GateShut t.before.parameters) :
    ∀ r ∈ (c.run inputs).2, r.command = none := by
  induction inputs generalizing c with
  | nil => simp [Controller.run]
  | cons input inputs ih =>
      rw [List.forall_mem_cons] at hinputs
      rw [Controller.run_cons, List.forall_mem_cons]
      obtain ⟨hquiet, hcons⟩ | ⟨t, rfl, hafter, hdid, hcons⟩ :=
        Controller.turns_cons input inputs c
      · rw [hcons] at hgate
        obtain ⟨hcommand, hrest⟩ := resting_step hquiet hinputs.1 h
        exact ⟨hcommand, ih hrest hinputs.2 hgate⟩
      · rw [hcons, List.forall_mem_cons] at hgate
        obtain ⟨hcommand, hrest⟩ := resting_turn hrests h hgate.1
        rw [← hdid]
        exact ⟨hcommand, ih (hafter ▸ hrest) hinputs.2 hgate.2⟩

/-- A cycle never changes the mode, and neither does anything that keeps a
driver at rest. -/
theorem turns_mode (inputs : List (Input (MotorDriver.Change δ))) {c : Controller δ}
    (hinputs : ∀ input ∈ inputs, KeepsRest δ input) :
    ∀ t ∈ c.turns inputs, t.state.mode = c.state.mode := by
  intro t ht
  refine t.setpointsKept_state.1.trans ?_
  refine Controller.forall_turns_while (I := fun c' => c'.state.mode = c.state.mode)
    (P := KeepsRest δ) (H := fun _ => True) ?_ ?_ inputs rfl hinputs (fun _ _ => trivial) t ht
  · intro input c' hkeeps hquiet h
    obtain ⟨_, _, rfl, -⟩ | ⟨_, _, rfl, -⟩ | ⟨_, _, hstep⟩ := Controller.step_of_quiet hquiet
    · exact hkeeps.elim
    · exact hkeeps.elim
    · rw [hstep]
      exact h
  · intro t _ h
    exact t.setpointsKept_after.1.trans h

/-- A stop is complete.  After it nothing is commanded, whatever the clock and
the sensors read, until a setter is called: in the target-speed mode if the
lowest speed is positive, and in open loop as long as every cycle computes a
positive spin-up duty. -/
theorem stop_once {t : Turn δ} {unavailable : Bool}
    (hstop : t.did.outcome = some (.stopped unavailable)) :
    t.StopsCompletely ∧
      ∀ inputs : List (Input (MotorDriver.Change δ)), RestsAfterStop δ →
        (∀ input ∈ inputs, KeepsRest δ input) →
          ((t.before.state.mode = .rpmTarget ∧ 1 ≤ t.before.parameters.rpmMin) ∨
            (t.before.state.mode = .openLoop ∧
              ∀ later ∈ t.after.turns inputs,
                0 < later.state.spinupDuty later.before.parameters)) →
            ∀ r ∈ (t.after.run inputs).2, r.command = none := by
  have hcomplete := Turn.stopsCompletely hstop
  refine ⟨hcomplete, fun inputs hrests hinputs hgate => ?_⟩
  have hrest : Resting t.after := by
    refine ⟨?_, Turn.noDemand_of_stop hcomplete.command⟩
    rw [hcomplete.driver]
    exact hrests.stop _
  refine resting_run hrests inputs hrest hinputs fun later hlater => ?_
  have hmode := (turns_mode inputs hinputs later hlater).trans hcomplete.mode
  have hparameters := Controller.turns_parameters inputs t.after later hlater
  obtain ⟨hspeed, hmin⟩ | ⟨hopen, hspinup⟩ := hgate
  · refine Or.inl ⟨hmode.trans hspeed, ?_⟩
    rwa [hparameters]
  · exact Or.inr ⟨hmode.trans hopen, hspinup later hlater⟩

/-- A bench driver whose motor has lost its commutation. -/
def stalledBench : BenchDriver :=
  { BenchDriver.standard "bench" with runState := .running }

/-- Cycles on a sagging bus. -/
def saggingBus : List (Input BenchDriver) :=
  [.cycle 20 .zero, .change { BenchDriver.standard "bench" with supply := ⟨9, 1⟩ },
    .cycle 10000020 .zero]

theorem restsAfterStop_bench : RestsAfterStop BenchDriver :=
  ⟨fun _ => rfl, fun _ h => h⟩

/-- A lost commutation stops the motor once. -/
theorem stop_once_on_stall :
    let c := Controller.broughtUp .standard ControlConfig.standard_valid 0
      (BenchDriver.standard "bench")
    let t : Turn BenchDriver := ⟨(c.run [.setDuty 1 0, .change stalledBench]).1, 10, .zero⟩
    t.did.outcome = some (.stopped false) ∧ t.StopsCompletely ∧
      (t.after.turns saggingBus).length = 2 ∧ RestsAfterStop BenchDriver ∧
      (∀ input ∈ saggingBus, KeepsRest BenchDriver input) ∧
      t.before.state.mode = .openLoop ∧
      (∀ later ∈ t.after.turns saggingBus,
        0 < later.state.spinupDuty later.before.parameters) ∧
      ∀ r ∈ (t.after.run saggingBus).2, r.command = none := by
  intro c t
  have hstop : t.did.outcome = some (.stopped false) := by decide +kernel
  have hkeeps : ∀ input ∈ saggingBus, KeepsRest BenchDriver input := by
    simp only [saggingBus, List.forall_mem_cons]
    exact ⟨trivial, fun _ _ => rfl, trivial, List.forall_mem_nil _⟩
  have hspinup : ∀ later ∈ t.after.turns saggingBus,
      0 < later.state.spinupDuty later.before.parameters := by decide +kernel
  have hmode : t.before.state.mode = .openLoop := by decide +kernel
  obtain ⟨hcomplete, hquiet⟩ := stop_once hstop
  exact ⟨hstop, hcomplete, by decide +kernel, restsAfterStop_bench, hkeeps, hmode, hspinup,
    hquiet saggingBus restsAfterStop_bench hkeeps (Or.inr ⟨hmode, hspinup⟩)⟩

end MotorSupervisor
