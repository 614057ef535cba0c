import MotorSupervisor.Proofs.Reading

/-!
# The settings of a configuration

The four tables of a configuration, each as the list of its keys with what they say.
Three of them are laid over their defaults.  The shared table is laid over a draft,
whose name is still missing, and leads to settings only if the name is there.

**Definitions.**
* `settings` of each table.

**Results.**
* `fields_lawful`, `fields_implement` of each table: its fields are those settings.
* `SharedConfig.exists_decode`, `SharedConfig.decode_of_flaw`,
  `SharedConfig.decode_of_unnamed`: the ends of the table with a required key.
-/

namespace MotorSupervisor

open Toml

namespace ControlConfig

/-- The keys of the control table. -/
def settings : List (Setting ControlConfig) :=
  [⟨"spinup_voltage", Reading.number, (·.spinupVoltage)⟩,
   ⟨"duty_step_max", Reading.number, (·.dutyStepMax)⟩,
   ⟨"duty_slope", Reading.number, (·.dutySlope)⟩,
   ⟨"filter_tau", Reading.number, (·.filterTau)⟩,
   ⟨"poles", Reading.word32, (·.poles)⟩,
   ⟨"reverse", Reading.truth, (·.reverse)⟩,
   ⟨"rpm_min", Reading.word32, (·.rpmMin)⟩,
   ⟨"control_period_us", Reading.word64, (·.controlPeriodMicros)⟩,
   ⟨"setpoint_timeout_ms", Reading.word64, (·.setpointTimeoutMillis)⟩,
   ⟨"rt_priority", Reading.signed32, (·.rtPriority)⟩]

theorem fields_lawful : Field.Lawful fields := by
  constructor
  case get_set => simp [fields]
  case apart => simp [fields, Field.Leaves]
  case ext =>
    rintro ⟨⟩ ⟨⟩ h
    simp only [fields, List.forall_mem_cons] at h
    simp_all

theorem fields_implement : List.Forall₂ Field.Implements fields settings :=
  .cons (.intro Decoder.reads_number) <| .cons (.intro Decoder.reads_number) <|
  .cons (.intro Decoder.reads_number) <| .cons (.intro Decoder.reads_number) <|
  .cons (.intro Decoder.reads_word32) <| .cons (.intro Decoder.reads_truth) <|
  .cons (.intro Decoder.reads_word32) <| .cons (.intro Decoder.reads_word64) <|
  .cons (.intro Decoder.reads_word64) <| .cons (.intro Decoder.reads_signed32) .nil

end ControlConfig

namespace SimulationConfig

/-- The keys of the simulation table. -/
def settings : List (Setting SimulationConfig) :=
  [⟨"bus_voltage", Reading.number, (·.busVoltage)⟩,
   ⟨"source_resistance", Reading.number, (·.sourceResistance)⟩,
   ⟨"kv", Reading.number, (·.kv)⟩,
   ⟨"poles", Reading.word32, (·.poles)⟩,
   ⟨"spinup_time_ms", Reading.word64, (·.spinupTimeMillis)⟩,
   ⟨"time_constant_ms", Reading.word64, (·.timeConstantMillis)⟩,
   ⟨"stall_rpm", Reading.number, (·.stallRpm)⟩,
   ⟨"full_load_current", Reading.number, (·.fullLoadCurrent)⟩,
   ⟨"min_comm_period_hnsec", Reading.word32, (·.minCommutationPeriod)⟩]

theorem fields_lawful : Field.Lawful fields := by
  constructor
  case get_set => simp [fields]
  case apart => simp [fields, Field.Leaves]
  case ext =>
    rintro ⟨⟩ ⟨⟩ h
    simp only [fields, List.forall_mem_cons] at h
    simp_all

theorem fields_implement : List.Forall₂ Field.Implements fields settings :=
  .cons (.intro Decoder.reads_number) <| .cons (.intro Decoder.reads_number) <|
  .cons (.intro Decoder.reads_number) <| .cons (.intro Decoder.reads_word32) <|
  .cons (.intro Decoder.reads_word64) <| .cons (.intro Decoder.reads_word64) <|
  .cons (.intro Decoder.reads_number) <| .cons (.intro Decoder.reads_number) <|
  .cons (.intro Decoder.reads_word32) .nil

end SimulationConfig

namespace DriverConfig

/-- The key of the driver table. -/
def settings : List (Setting DriverConfig) :=
  [⟨"name", Reading.text, (·.name)⟩]

theorem fields_lawful : Field.Lawful fields := by
  constructor
  case get_set => simp [fields]
  case apart => exact List.pairwise_singleton _ _
  case ext =>
    rintro ⟨⟩ ⟨⟩ h
    simpa [fields] using h

theorem fields_implement : List.Forall₂ Field.Implements fields settings :=
  .cons (.intro Decoder.reads_text) .nil

end DriverConfig

namespace SharedDraft

/-- The keys of the shared table, with a name that may still be missing. -/
def settings : List (Setting SharedDraft) :=
  [⟨"log_level", Reading.severity, (·.logLevel)⟩,
   ⟨"service_name", fun value x => ∃ name, Reading.text value name ∧ some name = x,
     (·.serviceName)⟩]

theorem fields_lawful : Field.Lawful SharedConfig.fields := by
  constructor
  case get_set => simp [SharedConfig.fields]
  case apart => simp [SharedConfig.fields, Field.Leaves]
  case ext =>
    rintro ⟨⟩ ⟨⟩ h
    simp only [SharedConfig.fields, List.forall_mem_cons] at h
    simp_all

theorem reads_name :
    Decoder.Reads (fun value => (Decoder.string value).map some)
      (fun value x => ∃ name, Reading.text value name ∧ some name = x) := by
  constructor
  case scalar =>
    rintro value x ⟨name, hname, -⟩
    exact Decoder.reads_text.scalar value name hname
  case decode_iff =>
    intro value hscalar x
    rw [Option.map_eq_some_iff]
    exact exists_congr fun name =>
      and_congr_left fun _ => Decoder.reads_text.decode_iff value hscalar name

theorem fields_implement : List.Forall₂ Field.Implements SharedConfig.fields settings :=
  .cons (.intro Decoder.reads_severity) <| .cons (.intro reads_name) .nil

end SharedDraft

namespace SharedConfig

/-- The keys of the shared table. -/
def settings : List (Setting SharedConfig) :=
  [⟨"log_level", Reading.severity, (·.logLevel)⟩,
   ⟨"service_name", Reading.text, (·.serviceName)⟩]

variable {entries : Entries}

theorem fits_name_iff {value : Value} :
    (∃ x, ∃ name, Reading.text value name ∧ some name = x) ↔ ∃ name, Reading.text value name :=
  ⟨fun ⟨_, name, h, _⟩ => ⟨name, h⟩, fun ⟨name, h⟩ => ⟨some name, name, h, rfl⟩⟩

/-- The required name changes nothing about which values fit. -/
theorem fitsTable_draft (h : FitsTable settings entries) :
    FitsTable SharedDraft.settings entries where
  values := by
    refine List.forall_mem_cons.2 ⟨h.values _ List.mem_cons_self, ?_⟩
    refine List.forall_mem_singleton.2 fun value hlookup => fits_name_iff.2 ?_
    exact h.values _ (List.mem_cons_of_mem _ List.mem_cons_self) value hlookup
  others := h.others

theorem hasFlaw_draft (h : HasFlaw settings entries) : HasFlaw SharedDraft.settings entries := by
  obtain ⟨s, hs, value, hlookup, hscalar, hunfit⟩ := h
  rcases List.mem_cons.1 hs with rfl | hs
  · exact ⟨_, List.mem_cons_self, value, hlookup, hscalar, hunfit⟩
  · obtain rfl := List.mem_singleton.1 hs
    exact ⟨_, List.mem_cons_of_mem _ List.mem_cons_self, value, hlookup, hscalar,
      mt fits_name_iff.1 hunfit⟩

/-- A shared table with a name leads to the settings that it describes. -/
theorem exists_decode (hfits : FitsTable settings entries) {value : Value}
    (hnamed : entries.lookup "service_name" = some value) :
    ∃ c, decode (.table entries) = some c ∧ Describes settings entries .standard c := by
  obtain ⟨draft, hdraft, hsaid⟩ := exists_overlay? SharedDraft.fields_lawful
    SharedDraft.fields_implement (fitsTable_draft hfits) .empty
  obtain ⟨hlevel, hrest⟩ := List.forall_mem_cons.1 hsaid
  have hname := List.forall_mem_singleton.1 hrest
  unfold Setting.Said at hname
  rw [hnamed] at hname
  obtain ⟨name, htext, hset⟩ := hname
  refine ⟨⟨draft.logLevel, name⟩, ?_, ?_⟩
  · have hkept : draft.serviceName = some name := hset.symm
    have hfinish : draft.finish? = some ⟨draft.logLevel, name⟩ := by
      rw [SharedDraft.finish?, hkept]
      rfl
    rw [decode, overlayValue?, hdraft]
    exact hfinish
  · refine List.forall_mem_cons.2 ⟨hlevel, List.forall_mem_singleton.2 ?_⟩
    unfold Setting.Said
    rw [hnamed]
    exact htext

theorem decode_of_flaw (hflaw : HasFlaw settings entries) : decode (.table entries) = none := by
  have hnone : overlay? fields entries SharedDraft.empty = none :=
    overlay?_of_flaw SharedDraft.fields_lawful SharedDraft.fields_implement (hasFlaw_draft hflaw)
  rw [decode, overlayValue?, hnone]
  rfl

/-- The name is required once the table is there. -/
theorem decode_of_unnamed (h : entries.lookup "service_name" = none) :
    decode (.table entries) = none := by
  refine Option.eq_none_iff_forall_ne_some.2 fun c hc => ?_
  obtain ⟨draft, hdraft, hfinish⟩ := Option.bind_eq_some_iff.1 hc
  have hgiven := ((overlay?_eq_some_iff SharedDraft.fields_lawful).1 hdraft).2
  obtain ⟨-, hrest⟩ := List.forall_mem_cons.1 hgiven
  have hname := List.forall_mem_singleton.1 hrest
  have hmissing : draft.serviceName = none := (Field.given_iff.1 hname).2 h
  rw [SharedDraft.finish?, hmissing] at hfinish
  cases hfinish

end SharedConfig

end MotorSupervisor
