import MotorSupervisor.Proofs.RotorCalls
import MotorSupervisor.Proofs.Span

/-!
# Spin-up timing

A spin-up is over when its time has passed, and it does not matter into which
spans the time was divided.  The speed during spin-up is computed from the time
left alone, so that a later span makes an earlier one forgotten.

**Definitions.**
* `RotorCall.total`: the time that passes in a list of calls.
* `RotorCall.Short`: no time has passed yet, or less than a given time.

**Results.**
* `exists_first_reaching`: the call in which a time is over.
* `after_spinup`: a start, and a span that covers the spin-up.
* `advance_advance`: two spans of a spin-up are one.
* `after_of_short`: before the time is over.
* `spinup_by_total`: a whole spin-up.
-/

namespace MotorSupervisor

namespace RotorCall

/-- The time that a call takes. -/
def span : RotorCall → Span
  | command _ => .zero
  | advance elapsed => elapsed

/-- The time that passes in a list of calls. -/
def total : List RotorCall → Span
  | [] => .zero
  | c :: calls => c.span + total calls

/-- No time has passed yet, or less than `time`. -/
def Short (time : Span) (calls : List RotorCall) : Prop :=
  (∀ elapsed, advance elapsed ∉ calls) ∨ total calls < time

@[simp] theorem nanoseconds_total_nil : (total []).nanoseconds = 0 :=
  rfl

@[simp] theorem nanoseconds_total_command (k : Command) (calls : List RotorCall) :
    (total (command k :: calls)).nanoseconds = (total calls).nanoseconds :=
  Nat.zero_add _

@[simp] theorem nanoseconds_total_advance (elapsed : Span) (calls : List RotorCall) :
    (total (advance elapsed :: calls)).nanoseconds =
      elapsed.nanoseconds + (total calls).nanoseconds :=
  rfl

theorem total_append (calls more : List RotorCall) :
    total (calls ++ more) = total calls + total more := by
  ext
  induction calls with
  | nil => simp
  | cons c calls ih =>
      cases c with
      | command k => simpa using ih
      | advance elapsed => simpa [Nat.add_assoc] using ih

theorem total_of_still {calls : List RotorCall} (h : ∀ elapsed, advance elapsed ∉ calls) :
    total calls = .zero := by
  ext
  induction calls with
  | nil => rfl
  | cons c calls ih =>
      cases c with
      | advance elapsed => exact absurd List.mem_cons_self (h elapsed)
      | command k =>
          rw [nanoseconds_total_command]
          exact ih fun elapsed hmem => h elapsed (List.mem_cons_of_mem _ hmem)

theorem Short.of_prefix {time : Span} {calls first : List RotorCall} (h : Short time calls)
    (hfirst : first <+: calls) : Short time first := by
  rcases h with hstill | hlt
  · exact Or.inl fun elapsed hmem => hstill elapsed (hfirst.subset hmem)
  · obtain ⟨rest, rfl⟩ := hfirst
    rw [total_append, Span.lt_def, Span.nanoseconds_add] at hlt
    exact Or.inr (Span.lt_def.2 (by omega))

/-- Where a time is over in the end, there is a first call in which it is. -/
theorem exists_first_reaching {calls : List RotorCall} {time : Span}
    (hstep : ∃ elapsed, advance elapsed ∈ calls) (h : time ≤ total calls) :
    ∃ first elapsed rest, calls = first ++ advance elapsed :: rest ∧ Short time first ∧
      time ≤ total first + elapsed := by
  induction calls generalizing time with
  | nil =>
      obtain ⟨elapsed, hmem⟩ := hstep
      cases hmem
  | cons c calls ih =>
      cases c with
      | command k =>
          have hstep' : ∃ elapsed, advance elapsed ∈ calls := by simpa using hstep
          have h' : time ≤ total calls := by
            rwa [Span.le_def, nanoseconds_total_command] at h
          obtain ⟨first, elapsed, rest, rfl, hshort, hreach⟩ := ih hstep' h'
          refine ⟨command k :: first, elapsed, rest, rfl, ?_, ?_⟩
          · rw [Short, Span.lt_def, nanoseconds_total_command]
            exact hshort.imp_left fun hstill elapsed => by simpa using hstill elapsed
          · rwa [Span.le_def, Span.nanoseconds_add, nanoseconds_total_command]
      | advance elapsed =>
          simp only [Span.le_def, nanoseconds_total_advance] at h
          by_cases hnow : time.nanoseconds ≤ elapsed.nanoseconds
          · exact ⟨[], elapsed, calls, rfl, Or.inl fun _ => List.not_mem_nil,
              by simpa [Span.le_def] using hnow⟩
          · have hleft : time - elapsed ≤ total calls := by
              rw [Span.le_def, Span.nanoseconds_sub]
              omega
            -- some of the time is left, so that a later call takes time
            have hstep' : ∃ elapsed, advance elapsed ∈ calls := by
              by_contra hstill
              rw [total_of_still (not_exists.1 hstill), Span.le_def] at hleft
              simp only [Span.nanoseconds_sub, Span.nanoseconds_zero] at hleft
              omega
            obtain ⟨first, last, rest, rfl, hshort, hreach⟩ := ih hstep' hleft
            simp only [Span.le_def, Span.nanoseconds_sub, Span.nanoseconds_add] at hreach
            refine ⟨advance elapsed :: first, last, rest, rfl, Or.inr ?_, ?_⟩
            · rw [Span.lt_def, nanoseconds_total_advance]
              rcases hshort with hstill | hlt
              · rw [total_of_still hstill, Span.nanoseconds_zero]
                omega
              · rw [Span.lt_def, Span.nanoseconds_sub] at hlt
                omega
            · rw [Span.le_def, Span.nanoseconds_add, nanoseconds_total_advance]
              omega

end RotorCall

namespace Rotor

open RotorCall

variable {r : Rotor}

theorem call_of_starting {k : Command} (h : r.state = .starting) (hk : k ≠ .stop) :
    r.call (.command k) = r := by
  have hmoving : r.state ≠ .idle := by simp [h]
  have hstate : r.state ≠ .running := by simp [h]
  cases k with
  | start target spinup reverse => exact start_of_not_idle target spinup reverse hmoving
  | stop => exact absurd rfl hk
  | setDuty duty => exact setDuty_of_not_running duty hstate

theorem ne_stop_of_notMem {k : Command} {calls : List RotorCall}
    (h : .command .stop ∉ .command k :: calls) : k ≠ .stop := by
  rintro rfl
  exact h List.mem_cons_self

/-- A spin-up goes on for as long as there is time left of it. -/
theorem advance_of_lt {elapsed : Span} (h : r.state = .starting)
    (hleft : r.spinupLeft ≤ r.spinupTime) (hlt : elapsed < r.spinupLeft) :
    (r.advance elapsed).1.state = .starting ∧
      (r.advance elapsed).1.spinupLeft = r.spinupLeft - elapsed ∧
      (r.advance elapsed).1.spinupTime = r.spinupTime := by
  have hgoes : ¬ (r.spinupLeft - elapsed = .zero ∨ r.spinupTime = .zero) := by
    simp only [Span.ext_iff, Span.le_def, Span.lt_def, Span.nanoseconds_sub,
      Span.nanoseconds_zero] at hleft hlt ⊢
    omega
  rw [advance_of_starting h, if_neg hgoes]
  exact ⟨h, rfl, rfl⟩

/-- The spin-up ends in a span that covers the time left of it. -/
theorem advance_of_le {elapsed : Span} (h : r.state = .starting) (hle : r.spinupLeft ≤ elapsed) :
    (r.advance elapsed).1 =
      { r with state := .running, speed := r.spinupTarget, spinupLeft := .zero } := by
  have hover : r.spinupLeft - elapsed = .zero := by
    simp only [Span.ext_iff, Span.le_def, Span.nanoseconds_sub, Span.nanoseconds_zero] at hle ⊢
    omega
  rw [advance_of_starting h, if_pos (Or.inl hover), hover]

/-- A start from rest, and the end of the spin-up. -/
theorem after_spinup (target spinup : Single) (reverse : Bool) (hidle : r.state = .idle)
    (hover : r.spinupTime ≤ elapsed) :
    r.after [.command (.start target spinup reverse), .advance elapsed] =
      { r with
        state := .running
        duty := admissible target
        reverse := reverse
        spinupLeft := .zero
        spinupTarget := r.noLoadSpeed (admissible spinup)
        speed := r.noLoadSpeed (admissible spinup) } := by
  show ((r.start target spinup reverse).1.advance elapsed).1 = _
  rw [start_of_idle r target spinup reverse hidle, advance_of_le rfl hover]

/-- Two spans of a spin-up are one. -/
theorem advance_advance {a b : Span} (h : (r.advance a).1.state = .starting) :
    ((r.advance a).1.advance b).1 = (r.advance (a + b)).1 := by
  have hstarting := state_advance_starting h
  have hgoes : ¬ (r.spinupLeft - a = .zero ∨ r.spinupTime = .zero) := by
    intro hends
    rw [advance_of_starting hstarting, if_pos hends] at h
    cases h
  have hleft : r.spinupLeft - a - b = r.spinupLeft - (a + b) := by
    ext
    simp only [Span.nanoseconds_sub, Span.nanoseconds_add]
    omega
  rw [advance_of_starting h, advance_of_starting hstarting, advance_of_starting hstarting,
    if_neg hgoes]
  simp only [spinupTime, hleft]
  rfl

theorem after_of_still {calls : List RotorCall} (hstop : .command .stop ∉ calls)
    (hstill : ∀ elapsed, .advance elapsed ∉ calls) (h : r.state = .starting) :
    r.after calls = r := by
  induction calls with
  | nil => rfl
  | cons c calls ih =>
      cases c with
      | advance elapsed => exact absurd List.mem_cons_self (hstill elapsed)
      | command k =>
          show (r.call (.command k)).after calls = r
          rw [call_of_starting h (ne_stop_of_notMem hstop)]
          exact ih (fun hmem => hstop (List.mem_cons_of_mem _ hmem))
            fun elapsed hmem => hstill elapsed (List.mem_cons_of_mem _ hmem)

/-- Before its time is over, a spin-up is where one span would have led. -/
theorem after_of_short {calls : List RotorCall} (hstop : .command .stop ∉ calls)
    (h : r.state = .starting) (hleft : r.spinupLeft ≤ r.spinupTime)
    (hshort : total calls < r.spinupLeft) :
    (r.after calls).state = .starting ∧
      (∀ elapsed, ((r.after calls).advance elapsed).1 =
        (r.advance (total calls + elapsed)).1) ∧
      ((∃ elapsed, .advance elapsed ∈ calls) →
        r.after calls = (r.advance (total calls)).1) := by
  induction calls generalizing r with
  | nil =>
      refine ⟨h, fun elapsed => ?_, fun hstep => ?_⟩
      · have hsum : total [] + elapsed = elapsed := by ext; simp
        rw [hsum]
        rfl
      · obtain ⟨elapsed, hmem⟩ := hstep
        cases hmem
  | cons c calls ih =>
      have hstop' : .command .stop ∉ calls := fun hmem => hstop (List.mem_cons_of_mem _ hmem)
      cases c with
      | command k =>
          have htotal : total (.command k :: calls) = total calls := by ext; simp
          rw [htotal] at hshort ⊢
          obtain ⟨hstate, hmore, hone⟩ := ih hstop' h hleft hshort
          rw [after, call_of_starting h (ne_stop_of_notMem hstop)]
          exact ⟨hstate, hmore, fun hstep => hone (by simpa using hstep)⟩
      | advance first =>
          have hlt : first < r.spinupLeft := by
            rw [Span.lt_def, nanoseconds_total_advance] at hshort
            exact Span.lt_def.2 (by omega)
          obtain ⟨hstate, hleft', htime⟩ := advance_of_lt h hleft hlt
          have hshort' : total calls < (r.advance first).1.spinupLeft := by
            rw [Span.lt_def, nanoseconds_total_advance] at hshort
            rw [hleft', Span.lt_def, Span.nanoseconds_sub]
            omega
          have hbound : (r.advance first).1.spinupLeft ≤ (r.advance first).1.spinupTime := by
            rw [hleft', htime]
            exact (Nat.sub_le _ _).trans hleft
          obtain ⟨hstarting, hmore, hone⟩ := ih hstop' hstate hbound hshort'
          refine ⟨hstarting, fun elapsed => ?_, fun _ => ?_⟩
          · show (((r.advance first).1.after calls).advance elapsed).1 = _
            have hsum : total (.advance first :: calls) + elapsed =
                first + (total calls + elapsed) := by
              ext
              simp [Nat.add_assoc]
            rw [hmore, advance_advance hstate, hsum]
          · show (r.advance first).1.after calls = (r.advance (first + total calls)).1
            by_cases hstep : ∃ elapsed, .advance elapsed ∈ calls
            · rw [hone hstep, advance_advance hstate]
            · have hstill := not_exists.1 hstep
              have hsum : first + total calls = first := by
                rw [total_of_still hstill]
                rfl
              rw [after_of_still hstop' hstill hstate, hsum]

/-- A spin-up that has not used up its time goes on, and the span that uses it up
ends it. -/
theorem ends_after_short {calls : List RotorCall} (hstop : .command .stop ∉ calls)
    (h : r.state = .starting) (hleft : r.spinupLeft = r.spinupTime)
    (hshort : Short r.spinupTime calls) :
    (r.after calls).state = .starting ∧
      ∀ elapsed, r.spinupTime ≤ total calls + elapsed →
        r.after (calls ++ [.advance elapsed]) =
          { r with state := .running, speed := r.spinupTarget, spinupLeft := .zero } := by
  rw [← hleft] at hshort ⊢
  rcases hshort with hstill | hlt
  · rw [after_of_still hstop hstill h]
    refine ⟨h, fun elapsed hreach => ?_⟩
    have hsum : total calls + elapsed = elapsed := by
      rw [total_of_still hstill]
      ext
      simp
    rw [hsum] at hreach
    rw [after_append, after_of_still hstop hstill h]
    exact advance_of_le h hreach
  · obtain ⟨hstarting, hmore, -⟩ := after_of_short hstop h (Nat.le_of_eq (by rw [hleft])) hlt
    refine ⟨hstarting, fun elapsed hreach => ?_⟩
    rw [after_append]
    exact (hmore elapsed).trans (advance_of_le h hreach)

/-- A spin-up from rest.  Before its time is over the rotor is where one span
would have led; otherwise it runs from the first span on that reaches the time,
at the speed of the spin-up, however far the span goes beyond. -/
theorem spinup_by_total (target spinup : Single) (reverse : Bool) (hidle : r.state = .idle)
    {calls : List RotorCall} (hstop : .command .stop ∉ calls)
    (hstep : ∃ elapsed, .advance elapsed ∈ calls) :
    let started := (r.start target spinup reverse).1
    (total calls < r.spinupTime →
      (started.after calls).state = .starting ∧
        started.after calls = (started.advance (total calls)).1) ∧
      (r.spinupTime ≤ total calls →
        ∃ first elapsed rest, calls = first ++ .advance elapsed :: rest ∧
          Short r.spinupTime first ∧ r.spinupTime ≤ total first + elapsed ∧
          (∀ earlier, earlier <+: first → (started.after earlier).state = .starting) ∧
          started.after (first ++ [.advance elapsed]) =
            { started with
              state := .running
              speed := r.noLoadSpeed (admissible spinup)
              spinupLeft := .zero }) := by
  intro started
  have hstarted : started = _ := start_of_idle r target spinup reverse hidle
  have hstate : started.state = .starting := by rw [hstarted]
  have htime : started.spinupTime = r.spinupTime := by rw [hstarted]; rfl
  have hleft : started.spinupLeft = started.spinupTime := by rw [htime, hstarted]
  have htarget : started.spinupTarget = r.noLoadSpeed (admissible spinup) := by rw [hstarted]
  rw [← htime, ← htarget]
  constructor
  · intro hlt
    obtain ⟨hstarting, -, hone⟩ := after_of_short hstop hstate (Nat.le_of_eq (by rw [hleft]))
      (by rwa [hleft])
    exact ⟨hstarting, hone hstep⟩
  · intro hreach
    obtain ⟨first, elapsed, rest, rfl, hshort, hlast⟩ := exists_first_reaching hstep hreach
    have hnever : ∀ earlier, earlier <+: first → .command .stop ∉ earlier :=
      fun earlier hearlier hmem => hstop (List.mem_append_left _ (hearlier.subset hmem))
    refine ⟨first, elapsed, rest, rfl, hshort, hlast, fun earlier hearlier => ?_, ?_⟩
    · exact (ends_after_short (hnever earlier hearlier) hstate hleft
        (hshort.of_prefix hearlier)).1
    · exact (ends_after_short (hnever first List.prefix_rfl) hstate hleft hshort).2 elapsed hlast

/-- Commands in between, and the last span longer than needed. -/
def busySpans : List RotorCall :=
  [.advance .zero, .command (.setDuty 1), .advance (.ofMillis 100),
    .command (.start 1 1 false), .advance (.ofMillis 150), .command (.setDuty 0.5)]

theorem spinup_by_total_of_busy :
    let r := atRest .standard
    let started := (r.start 0.2 0.1 true).1
    r.state = .idle ∧ .command .stop ∉ busySpans ∧ (∃ elapsed, .advance elapsed ∈ busySpans) ∧
      r.spinupTime ≤ total busySpans ∧
      ∃ first elapsed rest, busySpans = first ++ .advance elapsed :: rest ∧
        Short r.spinupTime first ∧ r.spinupTime ≤ total first + elapsed ∧
        (∀ earlier, earlier <+: first → (started.after earlier).state = .starting) ∧
        started.after (first ++ [.advance elapsed]) =
          { started with
            state := .running
            speed := r.noLoadSpeed (admissible 0.1)
            spinupLeft := .zero } := by
  intro r started
  have hstop : .command .stop ∉ busySpans := by decide +kernel
  have hstep : ∃ elapsed, .advance elapsed ∈ busySpans := ⟨.zero, List.mem_cons_self⟩
  have hreach : r.spinupTime ≤ total busySpans := by decide +kernel
  exact ⟨rfl, hstop, hstep, hreach, (spinup_by_total 0.2 0.1 true rfl hstop hstep).2 hreach⟩

end Rotor
end MotorSupervisor
