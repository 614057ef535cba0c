import MotorSupervisor.Proofs.Run
import MotorSupervisor.Proofs.Span

/-!
# Statistics over a history of cycles

The statistics are four words and a number, updated once for each cycle.  As
long as neither the number of cycles nor the sum of their running times leaves
its word, the words are exactly what a list of all the cycles would give.
Running times are counted in whole microseconds and compared with their budget
in nanoseconds, so a cycle can overrun its budget within the same microsecond.

**Definitions.**
* `CycleRecord`: what is recorded of one cycle.
* `CycleStats.recordAll`: a history of records, in order.
* `CycleStats.Summarises`: the counters are those of a history.
* `CycleStats.Accurate`: what a caller relies on besides.

**Results.**
* `Summarises.record`, `Summarises.recordAll`: one more record, and a list of them.
* `recordAll_flags`: every overrun is reported when it happens.
* `counters_accurate`: the statistics of every history that fits.
* `stats_run`, `accurate_run`: the statistics of a controller are those of its
  turns.
-/

namespace MotorSupervisor

/-- What is recorded of a cycle: its running time, its budget, and the seconds
since the cycle before it. -/
structure CycleRecord where
  body : Span
  budget : Span
  dt : Single
deriving DecidableEq

/-- The cycle ran longer than its budget. -/
def CycleRecord.overran (r : CycleRecord) : Bool :=
  decide (r.budget < r.body)

theorem Span.micros_mono {a b : Span} (h : a ≤ b) : a.micros ≤ b.micros :=
  Nat.div_le_div_right h

/-- Running times in whole microseconds. -/
def bodyMicros (history : List CycleRecord) : List Nat :=
  history.map (·.body.micros)

theorem bodyMicros_append (past future : List CycleRecord) :
    bodyMicros (past ++ future) = bodyMicros past ++ bodyMicros future :=
  List.map_append

theorem max?_getD_append (l : List Nat) (n : Nat) :
    (l ++ [n]).max?.getD 0 = max (l.max?.getD 0) n := by
  cases l with
  | nil => simp
  | cons m l =>
      rw [List.cons_append, List.max?_cons', List.max?_cons', List.foldl_append]
      rfl

namespace CycleStats

/-- Record some cycles, in order, with the flag of each. -/
def recordAll : List CycleRecord → CycleStats → CycleStats × List Bool
  | [], s => (s, [])
  | r :: later, s =>
      let (next, overrun) := s.record r.body r.budget r.dt
      let (last, overruns) := recordAll later next
      (last, overrun :: overruns)

theorem recordAll_cons (r : CycleRecord) (later : List CycleRecord) (s : CycleStats) :
    (s.recordAll (r :: later)).1 = ((s.record r.body r.budget r.dt).1.recordAll later).1 :=
  rfl

/-- Every overrun is reported when it happens. -/
theorem recordAll_flags (history : List CycleRecord) (s : CycleStats) :
    (s.recordAll history).2 = history.map CycleRecord.overran := by
  induction history generalizing s with
  | nil => rfl
  | cons r later ih => exact congrArg (r.overran :: ·) (ih _)

/-- The counters are those of a history. -/
structure Summarises (history : List CycleRecord) (s : CycleStats) : Prop where
  cycles : s.cycles.toNat = history.length
  overruns : s.overruns.toNat = history.countP CycleRecord.overran
  total : s.total.toNat = (bodyMicros history).sum
  longest : s.longest.toNat = (bodyMicros history).max?.getD 0
  lastDt : s.lastDt = (history.getLast?.map CycleRecord.dt).getD 0

/-- Neither the number of cycles nor the sum of their running times leaves its
word. -/
structure Fits (history : List CycleRecord) : Prop where
  count : history.length < UInt64.size
  total : (bodyMicros history).sum < UInt64.size

theorem Fits.of_append {past future : List CycleRecord} (h : Fits (past ++ future)) :
    Fits past := by
  obtain ⟨hcount, htotal⟩ := h
  rw [List.length_append] at hcount
  rw [bodyMicros_append, List.sum_append] at htotal
  exact ⟨by omega, by omega⟩

theorem summarises_empty : Summarises [] empty := by
  constructor <;> rfl

/-- One more record. -/
theorem Summarises.record {past : List CycleRecord} {s : CycleStats} (h : Summarises past s)
    {r : CycleRecord} (hfits : Fits (past ++ [r])) :
    Summarises (past ++ [r]) (s.record r.body r.budget r.dt).1 := by
  obtain ⟨hcount, htotal⟩ := hfits
  have hbody : bodyMicros [r] = [r.body.micros] := rfl
  rw [List.length_append, List.length_singleton] at hcount
  rw [bodyMicros_append, hbody, List.sum_append, List.sum_singleton] at htotal
  have hmicros : (UInt64.ofNat r.body.micros).toNat = r.body.micros :=
    UInt64.toNat_ofNat_of_lt' (by omega)
  constructor
  case cycles =>
    rw [CycleStats.record, UInt64.toNat_add, h.cycles, List.length_append, List.length_singleton]
    exact Nat.mod_eq_of_lt hcount
  case overruns =>
    have hle : past.countP CycleRecord.overran ≤ past.length := List.countP_le_length
    rw [CycleStats.record, List.countP_append, List.countP_singleton, CycleRecord.overran]
    dsimp only
    split
    · rw [UInt64.toNat_add, h.overruns]
      exact Nat.mod_eq_of_lt ((Nat.add_le_add_right hle 1).trans_lt hcount)
    · exact h.overruns
  case total =>
    rw [CycleStats.record, UInt64.toNat_add, hmicros, h.total, bodyMicros_append, hbody,
      List.sum_append, List.sum_singleton]
    exact Nat.mod_eq_of_lt htotal
  case longest =>
    rw [CycleStats.record, UInt64.toNat_max, hmicros, h.longest, bodyMicros_append, hbody,
      max?_getD_append]
  case lastDt =>
    rw [List.getLast?_concat]
    rfl

/-- Some more records. -/
theorem Summarises.recordAll {past future : List CycleRecord} {s : CycleStats}
    (h : Summarises past s) (hfits : Fits (past ++ future)) :
    Summarises (past ++ future) (s.recordAll future).1 := by
  induction future generalizing past s with
  | nil => rwa [List.append_nil]
  | cons r later ih =>
      rw [List.append_cons] at hfits ⊢
      exact ih (h.record hfits.of_append) hfits

/-- Counters that a caller can rely on. -/
structure Accurate (history : List CycleRecord) (s : CycleStats) : Prop
    extends Summarises history s where
  mean : s.mean.toNat = (bodyMicros history).sum / history.length
  overruns_le_cycles : s.overruns ≤ s.cycles
  mean_le_longest : s.mean ≤ s.longest
  /-- An overrun shows in the longest running time. -/
  budget_le_longest : ∀ r ∈ history, r.overran = true → r.budget.micros ≤ s.longest.toNat

theorem Summarises.mean {history : List CycleRecord} {s : CycleStats}
    (h : Summarises history s) : s.mean.toNat = (bodyMicros history).sum / history.length := by
  unfold CycleStats.mean
  split
  · rename_i hnone
    rw [← h.cycles, hnone, UInt64.toNat_zero, Nat.div_zero]
  · rw [UInt64.toNat_div, h.total, h.cycles]

theorem Summarises.accurate {history : List CycleRecord} {s : CycleStats}
    (h : Summarises history s) : Accurate history s := by
  refine ⟨h, h.mean, ?_, ?_, ?_⟩
  · rw [UInt64.le_iff_toNat_le, h.overruns, h.cycles]
    exact List.countP_le_length
  · rw [UInt64.le_iff_toNat_le, h.mean, h.longest]
    cases hmost : (bodyMicros history).max? with
    | none =>
        have hnone : history = [] := List.map_eq_nil_iff.1 (List.max?_eq_none_iff.1 hmost)
        rw [hnone, List.length_nil, Nat.div_zero]
        exact Nat.zero_le _
    | some most =>
        have hlength : (bodyMicros history).length = history.length := List.length_map _
        rw [← hlength]
        exact List.sum_div_length_le_max_of_max?_eq_some_nat hmost
  · intro r hr hoverran
    have hlong : r.budget ≤ r.body := Nat.le_of_lt (of_decide_eq_true hoverran)
    rw [h.longest]
    exact (Span.micros_mono hlong).trans
      (List.le_max?_getD_of_mem (List.mem_map_of_mem hr))

/-- Fresh statistics are accurate after every history that fits, and have
reported every overrun. -/
theorem counters_accurate {history : List CycleRecord} (hfits : Fits history) :
    Accurate history (empty.recordAll history).1 ∧
      (empty.recordAll history).2 = history.map CycleRecord.overran :=
  ⟨(summarises_empty.recordAll hfits).accurate, recordAll_flags history empty⟩

/-- An overrun by a nanosecond, a budget met to the nanosecond, and a cycle that
takes the sum to the last value of its word. -/
def longHistory : List CycleRecord :=
  [⟨⟨1000001⟩, ⟨1000000⟩, 0⟩, ⟨⟨999999⟩, ⟨999999⟩, 1⟩, ⟨⟨18446744073709549616999⟩, .zero, 2⟩]

theorem counters_accurate_long :
    Fits longHistory ∧
      (empty.recordAll longHistory).1 =
        ⟨3, 2, 18446744073709549616, 18446744073709551615, 2⟩ ∧
      Accurate longHistory (empty.recordAll longHistory).1 ∧
      (empty.recordAll longHistory).2 = longHistory.map CycleRecord.overran := by
  have hfits : Fits longHistory := ⟨by decide, by decide⟩
  exact ⟨hfits, by decide +kernel, counters_accurate hfits⟩

end CycleStats

section Run

variable {δ : Type}

/-- What the statistics are given of a turn. -/
def Turn.record (t : Turn δ) : CycleRecord :=
  ⟨t.body, t.before.period, t.elapsed⟩

variable [MotorDriver δ]

/-- The statistics of a controller are those of its turns. -/
theorem stats_run (inputs : List (Input (MotorDriver.Change δ))) (c : Controller δ) :
    (c.run inputs).1.stats = (c.stats.recordAll ((c.turns inputs).map Turn.record)).1 := by
  induction inputs generalizing c with
  | nil => rfl
  | cons input inputs ih =>
      rw [Controller.run_cons, ih]
      rcases Controller.turns_cons input inputs c with
        ⟨hquiet, hcons⟩ | ⟨t, hbefore, hafter, -, hcons⟩
      · rw [hcons, (Controller.measured_of_quiet hquiet).2]
      · rw [hcons, List.map_cons, CycleStats.recordAll_cons, ← hafter, ← hbefore]
        rfl

/-- In every run from the start the statistics are accurate for as long as they
fit. -/
theorem accurate_run {config : ControlConfig} {start : UInt64} {d : δ} {c : Controller δ}
    (hinit : (Controller.init config start d).1 = .ok c)
    (inputs : List (Input (MotorDriver.Change δ)))
    (hfits : CycleStats.Fits ((c.turns inputs).map Turn.record)) :
    CycleStats.Accurate ((c.turns inputs).map Turn.record) (c.run inputs).1.stats := by
  obtain ⟨valid, up, -, -, rfl⟩ := Controller.init_eq_ok_iff.1 hinit
  rw [stats_run]
  exact (CycleStats.summarises_empty.recordAll hfits).accurate

end Run

end MotorSupervisor
