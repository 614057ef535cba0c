import MotorSupervisor.Proofs.RotorSpeed
import MotorSupervisor.Proofs.SpinupTiming

/-!
# Speed of a spin-up

During a spin-up the speed is computed from the time that is left.  Every operation
on the way is rounded, but rounding keeps the order, so that less time left is never
a lower speed.  A spin-up therefore climbs, from rest to exactly its target.

**Definitions.**
* `Rotor.speeds`: the successive speeds of a rotor.
* `Rotor.Climbs`, `Rotor.Arrived`: a rotor on the way to its target, and at it.
* `Rotor.SpinsUpUntil`: the calls from a start up to the first one that ends the
  spin-up.

**Results.**
* `speedAt_antitone`: less time left is not a lower speed.
* `climbs_advance`, `climbs_call`: one call during a spin-up.
* `speeds_of_climbs`: the rest of a spin-up, from anywhere in it.
* `spinup_climbs`: a whole spin-up from rest.
-/

namespace MotorSupervisor

open Binary Format

/-- The larger the part that is gone, the less is left of the whole. -/
theorem one_sub_div_antitone {a b c : Single} (ha : a.IsMagnitude) (hb : b.IsMagnitude)
    (hc : c.IsMagnitude) (hpos : 0 < c.toRat) (hab : a.toRat ≤ b.toRat)
    (hbc : b.toRat ≤ c.toRat) : 1 - b / c ≤ 1 - a / c := by
  have hshare := (div_mem_of_le ha hc hpos (hab.trans hbc)).1.finite
  have hshare' := (div_mem_of_le hb hc hpos hbc).1.finite
  have hle : a / c ≤ b / c :=
    Binary.div_le_div_right ha.finite hb.finite hc.finite hpos
      ((le_iff_toRat ha.finite hb.finite).2 hab)
  rw [le_iff_toRat hshare hshare'] at hle
  obtain ⟨v, hv⟩ := sub_eq_round one_mem.1 hshare'
  obtain ⟨w, hw⟩ := sub_eq_round one_mem.1 hshare
  rw [hv, hw]
  exact round_le_round (sub_le_sub_left hle _) v w

namespace Rotor

/-- The speed of a rotor, and after each of the calls. -/
def speeds (r : Rotor) : List RotorCall → List Single
  | [] => [r.speed]
  | c :: calls => r.speed :: (r.call c).speeds calls

variable {r : Rotor}

/-- Less time left is not a lower speed. -/
theorem speedAt_antitone {a b : Span} (htarget : r.spinupTarget.IsMagnitude)
    (htime : r.spinupTime ≠ .zero) (hb : b ≤ r.spinupTime) (hab : a ≤ b) :
    r.speedAt b ≤ r.speedAt a := by
  have ha : a ≤ r.spinupTime := Nat.le_trans hab hb
  obtain ⟨htotal, hpos⟩ := spinupTime_spec htime
  obtain ⟨hleft, hless⟩ := left_spec ha
  obtain ⟨hleft', hless'⟩ := left_spec hb
  have hfits : r.spinupTime.Fits := Span.fits_ofMillis _
  have hmono : a.toSeconds.toRat ≤ b.toSeconds.toRat :=
    Span.toSeconds_mono (lt_of_le_of_lt ha hfits) (lt_of_le_of_lt hb hfits) hab
  have hdone := (one_sub_div_mem hleft htotal hpos hless).1.finite
  have hdone' := (one_sub_div_mem hleft' htotal hpos hless').1.finite
  have hle := one_sub_div_antitone hleft hleft' htotal hpos hmono hless'
  rw [le_iff_toRat hdone' hdone] at hle
  obtain ⟨v, hv⟩ := mul_eq_round htarget.finite hdone'
  obtain ⟨w, hw⟩ := mul_eq_round htarget.finite hdone
  rw [speedAt, speedAt, hv, hw]
  exact round_le_round (mul_le_mul_of_nonneg_left hle htarget.nonneg) v w

/-- A rotor in spin-up, not faster than with any less time left. -/
structure Climbs (r : Rotor) : Prop where
  state : r.state = .starting
  left : r.spinupLeft ≤ r.spinupTime
  target : r.spinupTarget.IsMagnitude
  speed : r.speed.IsMagnitude
  below : r.speed ≤ r.spinupTarget
  ahead : r.spinupTime ≠ .zero → ∀ left, left ≤ r.spinupLeft → r.speed ≤ r.speedAt left

/-- The spin-up is over, and its target is reached. -/
structure Arrived (r : Rotor) : Prop where
  state : r.state = .running
  speed : r.speed = r.spinupTarget

/-- Up to the end of a spin-up, a span of time leads up. -/
theorem climbs_advance (elapsed : Span) (h : r.Climbs) :
    r.speed ≤ (r.advance elapsed).1.speed ∧
      (r.advance elapsed).1.spinupTarget = r.spinupTarget ∧
      ((r.advance elapsed).1.Climbs ∨ (r.advance elapsed).1.Arrived) := by
  have hless : r.spinupLeft - elapsed ≤ r.spinupLeft := Nat.sub_le _ _
  have hleft : r.spinupLeft - elapsed ≤ r.spinupTime := Nat.le_trans hless h.left
  rw [advance_of_starting h.state]
  split_ifs with hends
  · exact ⟨h.below, rfl, .inr ⟨rfl, rfl⟩⟩
  · have htime : r.spinupTime ≠ .zero := fun hzero => hends (Or.inr hzero)
    obtain ⟨hspeed, hspeed'⟩ := speedAt_mem htime hleft h.target
    refine ⟨h.ahead htime _ hless, rfl, .inl ?_⟩
    exact
      { state := h.state
        left := hleft
        target := h.target
        speed := hspeed
        below := (le_iff_toRat hspeed.finite h.target.finite).2 hspeed'
        ahead := fun htime' left hle => speedAt_antitone h.target htime' hleft hle }

theorem Climbs.speed_le_self (h : r.Climbs) : r.speed ≤ r.speed :=
  (le_iff_toRat h.speed.finite h.speed.finite).2 le_rfl

/-- Up to the end of a spin-up, a call leads up unless it is a stop. -/
theorem climbs_call {c : RotorCall} (hc : c ≠ .command .stop) (h : r.Climbs) :
    r.speed ≤ (r.call c).speed ∧ (r.call c).spinupTarget = r.spinupTarget ∧
      ((r.call c).Climbs ∨ (r.call c).Arrived) := by
  cases c with
  | advance elapsed => exact climbs_advance elapsed h
  | command k =>
      rw [call_of_starting h.state fun hk => hc (congrArg _ hk)]
      exact ⟨h.speed_le_self, rfl, .inl h⟩

/-- A start from rest leads into a spin-up that climbs. -/
theorem climbs_start (target spinup : Single) (reverse : Bool) (h : r.Settled)
    (hidle : r.state = .idle) (htarget : (r.noLoadSpeed (admissible spinup)).IsMagnitude) :
    (r.start target spinup reverse).1.Climbs := by
  have hzero : ∀ x : Single, x.IsMagnitude → r.speed ≤ x := by
    intro x hx
    rw [h.speed hidle, le_iff_toRat zero_mem.1 hx.finite, zero_mem.2]
    exact hx.nonneg
  rw [start_of_idle r target spinup reverse hidle]
  exact
    { state := rfl
      left := Nat.le_refl _
      target := htarget
      speed := by
        show r.speed.IsMagnitude
        rw [h.speed hidle]
        exact isMagnitude_zero
      below := hzero _ htarget
      ahead := fun htime left hle => hzero _ (speedAt_mem htime hle htarget).1 }

/-- The rotor is in spin-up before each of the calls. -/
def SpinsUpUntil (r : Rotor) : List RotorCall → Prop
  | [] => True
  | c :: calls => r.state = .starting ∧ (r.call c).SpinsUpUntil calls

instance decidableSpinsUpUntil : ∀ (calls : List RotorCall) (r : Rotor),
    Decidable (r.SpinsUpUntil calls)
  | [], _ => isTrue trivial
  | c :: calls, r =>
      have := decidableSpinsUpUntil calls (r.call c)
      inferInstanceAs (Decidable (_ ∧ _))

/-- From within a spin-up the speed does not fall and does not pass the target, which
it has when the rotor runs. -/
theorem speeds_of_climbs {calls : List RotorCall} (hstop : .command .stop ∉ calls)
    (hspins : r.SpinsUpUntil calls) (h : r.Climbs) :
    (∀ s ∈ r.speeds calls, r.speed ≤ s ∧ s ≤ r.spinupTarget) ∧
      (r.speeds calls).Pairwise (· ≤ ·) ∧
      ((r.after calls).state = .running → (r.after calls).speed = r.spinupTarget) := by
  induction calls generalizing r with
  | nil =>
      refine ⟨?_, List.pairwise_singleton _ _, fun hrunning => ?_⟩
      · simpa [speeds] using ⟨h.speed_le_self, h.below⟩
      · cases h.state.symm.trans hrunning
  | cons c calls ih =>
      have hc : c ≠ .command .stop := fun hc => hstop (hc ▸ List.mem_cons_self)
      have hstop' : .command .stop ∉ calls := fun hmem => hstop (List.mem_cons_of_mem _ hmem)
      obtain ⟨hup, htarget, hnext⟩ := climbs_call hc h
      rw [speeds, after, List.forall_mem_cons, List.pairwise_cons, ← htarget]
      cases hnext with
      | inl hclimbs =>
          obtain ⟨hbounds, hsorted, hend⟩ := ih hstop' hspins.2 hclimbs
          have hbounds' : ∀ s ∈ (r.call c).speeds calls,
              r.speed ≤ s ∧ s ≤ (r.call c).spinupTarget :=
            fun s hs => ⟨Binary.le_trans hup (hbounds s hs).1, (hbounds s hs).2⟩
          exact ⟨⟨⟨h.speed_le_self, htarget ▸ h.below⟩, hbounds'⟩,
            ⟨fun s hs => (hbounds' s hs).1, hsorted⟩, hend⟩
      | inr harrived =>
          -- the rotor runs, so that this was the last of the calls
          cases calls with
          | cons c' calls => cases harrived.state.symm.trans hspins.2.1
          | nil =>
              have hend : (r.call c).spinupTarget ≤ (r.call c).spinupTarget := by
                rw [htarget]
                exact (le_iff_toRat h.target.finite h.target.finite).2 le_rfl
              rw [speeds, harrived.speed, List.forall_mem_singleton, List.forall_mem_singleton,
                htarget]
              rw [htarget] at hend
              exact ⟨⟨⟨h.speed_le_self, h.below⟩, h.below, hend⟩,
                ⟨h.below, List.pairwise_singleton _ _⟩, fun _ => harrived.speed.trans htarget⟩

/-- A spin-up from rest to a target that is a number and not negative.  Until the rotor
runs its speed does not fall, from zero to exactly the target. -/
theorem spinup_climbs (config : SimulationConfig) (history : List RotorCall)
    (target spinup : Single) (reverse : Bool) {calls : List RotorCall} :
    let r := (atRest config).after history
    let started := (r.start target spinup reverse).1
    let top := r.noLoadSpeed (admissible spinup)
    r.state = .idle → top.isFinite → 0 ≤ top →
      .command .stop ∉ calls → started.SpinsUpUntil calls →
        (∀ s ∈ started.speeds calls, 0 ≤ s ∧ s ≤ top) ∧
          (started.speeds calls).Pairwise (· ≤ ·) ∧
          ((started.after calls).state = .running → (started.after calls).speed = top) := by
  intro r started top hidle hfinite hnonneg hstop hspins
  have hsettled : r.Settled := settled_after config history
  rw [le_iff_toRat zero_mem.1 hfinite, zero_mem.2] at hnonneg
  have hclimbs : started.Climbs := climbs_start target spinup reverse hsettled hidle
    ⟨hfinite, hnonneg⟩
  have hstarted : started = _ := start_of_idle r target spinup reverse hidle
  have htarget : started.spinupTarget = top := by rw [hstarted]
  have hrest : started.speed = 0 := by
    rw [hstarted]
    exact hsettled.speed hidle
  obtain ⟨hbounds, hsorted, hend⟩ := speeds_of_climbs hstop hspins hclimbs
  rw [hrest, htarget] at hbounds
  rw [htarget] at hend
  exact ⟨hbounds, hsorted, hend⟩

/-- The second spin-up of a rotor, in uneven spans with a command in between. -/
theorem spinup_climbs_again :
    let history := [.command (.start 1 1 false), .advance (.ofMillis 300), .command .stop]
    let calls := [.advance (.ofMillis 70), .command (.setDuty 1), .advance .zero,
      .advance (.ofMicros 100001), .advance (.ofSeconds 3)]
    let r := (atRest .standard).after history
    let started := (r.start 0.5 0.3 true).1
    let top := r.noLoadSpeed (admissible 0.3)
    r.state = .idle ∧ top.isFinite ∧ 0 ≤ top ∧ RotorCall.command .stop ∉ calls ∧
      started.SpinsUpUntil calls ∧ (started.after calls).state = .running ∧
      (∀ s ∈ started.speeds calls, 0 ≤ s ∧ s ≤ top) ∧
      (started.speeds calls).Pairwise (· ≤ ·) ∧ (started.after calls).speed = top := by
  intro history calls r started top
  have hidle : r.state = .idle := by decide +kernel
  have htop : top.isFinite ∧ 0 ≤ top := by decide +kernel
  have hstop : RotorCall.command .stop ∉ calls := by decide
  have hspins : started.SpinsUpUntil calls ∧ (started.after calls).state = .running := by
    decide +kernel
  obtain ⟨hbounds, hsorted, hend⟩ :=
    spinup_climbs .standard history 0.5 0.3 true hidle htop.1 htop.2 hstop hspins.1
  exact ⟨hidle, htop.1, htop.2, hstop, hspins.1, hspins.2, hbounds, hsorted, hend hspins.2⟩

end Rotor
end MotorSupervisor
