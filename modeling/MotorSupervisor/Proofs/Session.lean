import MotorSupervisor.Proofs.Deadline
import MotorSupervisor.Proofs.Launch
import MotorSupervisor.Proofs.Shutdown

/-!
# Sessions

A session lives as long as its controller.  On the way the program lets time pass,
calls the control cycle and reads the status, and none of that shuts the controller
down.  However many times the program looks at the clock, the last thing that it does
is therefore the first shutdown.

**Definitions.**
* `Controller.Life`: what a controller goes through without a shutdown.
* `Session.opened`: the session in which a program starts to report.
* `Session.StopsAt`: the motor of a session is stopped at its end, and not before.

**Results.**
* `operate_eq`: what a program does with a controller that is up.
* `life_runCycles`, `life_wakeAt`: a session that goes on.
* `stopsAt_runPolls`, `stopsAt_breakOff`: the two ways in which one ends.
* `durationElapsed_mem_complete?`: a session with a deadline ends because of it.
-/

namespace MotorSupervisor

/-- A controller becomes another one through inputs and status readings, without a
shutdown. -/
inductive Controller.Life {δ : Type} [MotorDriver δ] (c : Controller δ) : Controller δ → Prop
  | start : Life c c
  | input {before : Controller δ} (input : Input (MotorDriver.Change δ))
      (hgoes : input ≠ .shutdown) (hbefore : Life c before) : Life c (before.step input).1
  | status {before : Controller δ} (hbefore : Life c before) : Life c before.status.1

theorem Controller.Life.active {δ : Type} [MotorDriver δ] {c c' : Controller δ}
    (h : c.Life c') (hactive : c.active = true) : c'.active = true := by
  induction h with
  | start => exact hactive
  | @input before input hgoes _ ih =>
      have hnone : .shutdown ∉ [input] := fun hmem => hgoes (List.mem_singleton.1 hmem).symm
      have hrun : (before.run [input]).1.active = true := active_run ih hnone
      exact hrun
  | status _ ih => exact ih

namespace Program
namespace Session

/-- The session of a controller that is up, at the start of its time line. -/
def opened (options : Options) (c : Controller SimulatedDriver) (deadline : Option Span) :
    Session where
  controller :=
    match setpointInput options with
    | some (input, _) => (c.step input).1
    | none => c
  now := .zero
  driverTime := .zero
  nextCycle :=
    match setpointInput options with
    | some _ => .zero
    | none => c.period
  nextReport := .ofMillis (max options.statusIntervalMillis.toNat 1)
  interval := .ofMillis (max options.statusIntervalMillis.toNat 1)
  deadline := deadline

/-- What the log says of the setter call that the options ask for. -/
def openingLog (options : Options) : List Event :=
  match setpointInput options with
  | some (_, event) => [event]
  | none => []

variable {c : Controller SimulatedDriver} {s : Session}

theorem controller_passTo (time : Span) (s : Session) :
    (s.passTo time).1.controller =
      (s.controller.step (.change (time - s.driverTime : Span))).1 :=
  rfl

theorem controller_access (time : Span) (input : Input Span) (s : Session) :
    (s.access time input).1.controller =
      ((s.passTo time).1.controller.step input).1 :=
  rfl

/-- Only the setter call that the options ask for precedes a session. -/
theorem life_opened (options : Options) (c : Controller SimulatedDriver)
    (deadline : Option Span) : c.Life (opened options c deadline).controller := by
  unfold opened
  dsimp only
  cases hinput : setpointInput options with
  | none => exact .start
  | some setter =>
      have hgoes : setter.1 ≠ .shutdown := by
        unfold setpointInput at hinput
        split at hinput <;> cases hinput <;> exact nofun
      refine .input _ ?_ .start
      exact hgoes

theorem life_passTo {time : Span} (h : c.Life s.controller) :
    c.Life (s.passTo time).1.controller := by
  rw [controller_passTo]
  exact h.input _ nofun

theorem life_access {time : Span} {input : Input Span} (hgoes : input ≠ .shutdown)
    (h : c.Life s.controller) : c.Life (s.access time input).1.controller := by
  rw [controller_access]
  exact (life_passTo h).input input hgoes

/-- A session after a cycle that is due. -/
def cycled (s : Session) : Session :=
  { (s.access s.nextCycle (.cycle (Clock.reading s.nextCycle) .zero)).1 with
    nextCycle := s.nextCycle + s.controller.period }

theorem runCycles_succ_fst (limit : Span) (fuel : Nat) (s : Session) :
    (runCycles limit (fuel + 1) s).1 =
      if s.nextCycle ≤ limit then (runCycles limit fuel s.cycled).1 else s := by
  rw [runCycles]
  by_cases hdue : s.nextCycle ≤ limit
  · rw [if_pos hdue, if_pos hdue]
    rfl
  · rw [if_neg hdue, if_neg hdue]

theorem wakeAt_fst (wake : Span) (s : Session) :
    (s.wakeAt wake).1 = ({ (s.runDue wake).1 with now := wake }).reportDue.1 :=
  rfl

theorem prepend_fst (log : List Event) (ending : Session × List Event) :
    (prepend log ending).1 = ending.1 :=
  rfl

theorem prepend_snd (log : List Event) (ending : Session × List Event) :
    (prepend log ending).2 = log ++ ending.2 :=
  rfl

/-- Any number of cycles that are due. -/
theorem life_runCycles {limit : Span} (fuel : Nat) (h : c.Life s.controller) :
    c.Life (runCycles limit fuel s).1.controller := by
  induction fuel generalizing s with
  | zero => exact h
  | succ fuel ih =>
      rw [runCycles_succ_fst]
      split
      · have hgoes : (Input.cycle (Clock.reading s.nextCycle) .zero : Input Span) ≠ .shutdown :=
          nofun
        have hcycle : c.Life s.cycled.controller := life_access hgoes h
        exact ih hcycle
      · exact h

theorem life_runDue {limit : Span} (h : c.Life s.controller) :
    c.Life (s.runDue limit).1.controller := by
  unfold runDue
  exact life_runCycles _ h

theorem life_reportDue (h : c.Life s.controller) : c.Life s.reportDue.1.controller := by
  unfold reportDue
  split
  · exact (life_passTo h).status
  · exact h

/-- One look at the clock. -/
theorem life_wakeAt {wake : Span} (h : c.Life s.controller) :
    c.Life (s.wakeAt wake).1.controller := by
  rw [wakeAt_fst]
  exact life_reportDue (life_runDue h)

/-- A stop leaves the simulated motor at rest. -/
theorem state_perform_stop (d : SimulatedDriver) :
    (MotorDriver.perform .stop d).1.rotor.state = .idle :=
  rfl

/-- The controller lives on to a first shutdown, which stops the motor and is the end
of the session. -/
structure StopsAt (c : Controller SimulatedDriver) (last : Session) : Prop where
  stopped : ∃ before, c.Life before ∧ before.active = true ∧ StopsMotorOnce before ∧
    (before.step .shutdown).1 = last.controller
  atRest : last.controller.driver.rotor.state = .idle

theorem stopsAt_access {time : Span} (h : c.Life s.controller) (hactive : c.active = true) :
    StopsAt c (s.access time .shutdown).1 := by
  have hlife : c.Life (s.passTo time).1.controller := life_passTo h
  have hstops := stopsMotorOnce_of_active (hlife.active hactive)
  constructor
  case stopped => exact ⟨_, hlife, hlife.active hactive, hstops, rfl⟩
  case atRest =>
    show ((s.passTo time).1.controller.step .shutdown).1.driver.rotor.state = .idle
    rw [hstops.driver, state_perform_stop]

/-- However often the program has looked at the clock when it is interrupted, it
shuts the controller down; so it does at its deadline. -/
theorem stopsAt_runPolls (polls : Nat) (h : c.Life s.controller) (hactive : c.active = true) :
    StopsAt c (s.runPolls polls).1 := by
  induction polls generalizing s with
  | zero => exact stopsAt_access h hactive
  | succ polls ih =>
      rw [runPolls]
      split
      · rw [prepend_fst]
        exact stopsAt_access h hactive
      · have hpoll : c.Life s.poll.1.controller := by
          rw [poll]
          exact life_wakeAt h
        dsimp only
        rw [prepend_fst]
        exact ih hpoll

theorem stopsAt_complete? {last : Session} {log : List Event} (h : c.Life s.controller)
    (hactive : c.active = true) (hlast : s.complete? = some (last, log)) : StopsAt c last := by
  obtain ⟨deadline, -, hpolls⟩ := Option.map_eq_some_iff.1 hlast
  have hend := stopsAt_runPolls (deadline.nanoseconds / pollInterval.nanoseconds + 2) h hactive
  rw [congrArg Prod.fst hpolls] at hend
  exact hend

theorem stopsAt_breakOff (h : c.Life s.controller) (hactive : c.active = true) :
    StopsAt c s.breakOff.1 := by
  have hcycled : c.Life (s.runDue s.now).1.controller := life_runDue h
  exact stopsAt_access hcycled hactive

/-- Cycles do not move the deadline. -/
theorem deadline_runCycles {limit : Span} (fuel : Nat) (s : Session) :
    (runCycles limit fuel s).1.deadline = s.deadline := by
  induction fuel generalizing s with
  | zero => rfl
  | succ fuel ih =>
      rw [runCycles_succ_fst]
      split
      · exact ih s.cycled
      · rfl

theorem clock_reportDue (s : Session) :
    s.reportDue.1.now = s.now ∧ s.reportDue.1.deadline = s.deadline := by
  unfold reportDue
  split <;> exact ⟨rfl, rfl⟩

/-- One look at the clock is one step towards the deadline. -/
theorem clock_wakeAt (wake : Span) (s : Session) :
    (s.wakeAt wake).1.now = wake ∧ (s.wakeAt wake).1.deadline = s.deadline := by
  rw [wakeAt_fst]
  obtain ⟨hnow, hdeadline⟩ := clock_reportDue { (s.runDue wake).1 with now := wake }
  exact ⟨hnow, hdeadline.trans (deadline_runCycles _ s)⟩

theorem expired_iff {deadline : Span} (hdeadline : s.deadline = some deadline) :
    s.expired = true ↔ deadline.nanoseconds ≤ s.now.nanoseconds := by
  unfold expired
  rw [hdeadline]
  exact decide_eq_true_iff

/-- Enough looks at the clock bring a session to its deadline. -/
theorem durationElapsed_mem_runPolls {deadline : Span} (polls : Nat)
    (hdeadline : s.deadline = some deadline)
    (hpolls : deadline.nanoseconds ≤
      s.now.nanoseconds + polls * pollInterval.nanoseconds) :
    .durationElapsed ∈ (s.runPolls (polls + 1)).2 := by
  -- Each look moves the clock by one interval, whatever the cycles in between do.
  induction polls generalizing s with
  | zero =>
      have hexpired : s.expired = true := (expired_iff hdeadline).2 (by omega)
      rw [runPolls, if_pos hexpired, prepend_snd]
      exact List.mem_cons_self
  | succ polls ih =>
      rw [runPolls]
      split
      · rw [prepend_snd]
        exact List.mem_cons_self
      · obtain ⟨hnow, hkept⟩ := clock_wakeAt (s.now + pollInterval) s
        have hnext : s.poll.1.now.nanoseconds = s.now.nanoseconds + pollInterval.nanoseconds :=
          congrArg Span.nanoseconds hnow
        rw [Nat.succ_mul] at hpolls
        dsimp only
        rw [prepend_snd]
        exact List.mem_append_right _ (ih (hkept.trans hdeadline) (by omega))

/-- A session with a deadline ends because of it, and is not merely given up. -/
theorem durationElapsed_mem_complete? {last : Session} {log : List Event}
    (h : s.complete? = some (last, log)) : .durationElapsed ∈ log := by
  obtain ⟨deadline, hdeadline, hlast⟩ := Option.map_eq_some_iff.1 h
  have hlog : (s.runPolls (deadline.nanoseconds / pollInterval.nanoseconds + 2)).2 = log :=
    congrArg Prod.snd hlast
  rw [← hlog]
  refine durationElapsed_mem_runPolls _ hdeadline ?_
  have hmost := Nat.div_add_mod' deadline.nanoseconds pollInterval.nanoseconds
  have hless := Nat.mod_lt deadline.nanoseconds (show 0 < pollInterval.nanoseconds by decide)
  rw [Nat.succ_mul]
  omega

end Session

open Session in
/-- What a program does with a controller that is up. -/
theorem operate_eq (options : Options) (c : Controller SimulatedDriver) :
    operate options c =
      match deadlineOf options.duration with
      | .error () => (.overlong (opened options c none), openingLog options)
      | .ok deadline => (.running (opened options c deadline), openingLog options) := by
  unfold operate opened openingLog
  cases setpointInput options <;> cases deadlineOf options.duration <;> rfl

end Program
end MotorSupervisor
