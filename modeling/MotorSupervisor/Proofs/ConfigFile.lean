import Mathlib.Logic.Relation
import MotorSupervisor.Config.Load
import MotorSupervisor.Proofs.Settings

/-!
# Configuration files

A configuration file is laid over the defaults: its tables and keys change the settings
that they stand for, and nothing else.  The four tables come to their defaults in
different ways.  One of them has a key that is required as soon as the table is there;
the other three may as well be empty as missing.

The order of tables and keys does not matter, nor do keys and tables that nobody knows,
as long as they can be read.

**Definitions.**
* `tableOf`: the entries of a table of the document.
* `Config.FitsDocument`, `Config.SaidBy`: a document that leads to a configuration, and
  the configuration that it leads to.
* `Config.SpoiledDocument`: a document that leads to none.
* `Config.DocumentEdit`: changes of a document that mean nothing.
* `Config.LoadedOver`: all that is said of loading a document.

**Results.**
* `Config.exists_ofEntries?`, `Config.ofEntries?_of_spoiled`: success and failure.
* `Config.ofEntries?_of_edit`, `Config.ofEntries?_of_edits`: one change, and any number.
* `Config.loaded_over_defaults`: the files.
-/

namespace MotorSupervisor

open Toml

/-- The entries of a table of the document; a table that is not there has none. -/
def tableOf (document : Entries) (name : String) : Entries :=
  match document.lookup name with
  | some (.table entries) => entries
  | _ => []

namespace Config

/-- The tables that a configuration is made of. -/
def tableNames : List String :=
  ["shared", "driver", "control", "simulation"]

/-- The known tables are tables, their values fit, and everything else can be read. -/
structure FitsDocument (document : Entries) : Prop where
  tables : ∀ name ∈ tableNames, ∀ value, document.lookup name = some value →
    ∃ entries, value = .table entries
  named : ∀ entries, document.lookup "shared" = some (.table entries) →
    ∃ value, entries.lookup "service_name" = some value
  shared : FitsTable SharedConfig.settings (tableOf document "shared")
  driver : FitsTable DriverConfig.settings (tableOf document "driver")
  control : FitsTable ControlConfig.settings (tableOf document "control")
  simulation : FitsTable SimulationConfig.settings (tableOf document "simulation")
  others : ∀ entry ∈ document, entry.1 ∉ tableNames → entry.2.isReadable = true

/-- The configuration that a document leads to: each setting is what the value of its
key says, or else the default. -/
structure SaidBy (document : Entries) (config : Config) : Prop where
  shared : Describes SharedConfig.settings (tableOf document "shared") .standard config.shared
  driver : Describes DriverConfig.settings (tableOf document "driver") .standard config.driver
  control : Describes ControlConfig.settings (tableOf document "control") .standard config.control
  simulation :
    Describes SimulationConfig.settings (tableOf document "simulation") .standard config.simulation

/-- One of the known tables has a scalar that does not fit its key, or the shared table
has no name. -/
inductive SpoiledDocument (document : Entries) : Prop
  | unnamed {entries : Entries} (htable : document.lookup "shared" = some (.table entries))
      (hname : entries.lookup "service_name" = none)
  | shared {entries : Entries} (htable : document.lookup "shared" = some (.table entries))
      (hflaw : HasFlaw SharedConfig.settings entries)
  | driver {entries : Entries} (htable : document.lookup "driver" = some (.table entries))
      (hflaw : HasFlaw DriverConfig.settings entries)
  | control {entries : Entries} (htable : document.lookup "control" = some (.table entries))
      (hflaw : HasFlaw ControlConfig.settings entries)
  | simulation {entries : Entries}
      (htable : document.lookup "simulation" = some (.table entries))
      (hflaw : HasFlaw SimulationConfig.settings entries)

theorem fields_lawful : Field.Lawful fields := by
  constructor
  case get_set => simp [fields]
  case apart => simp [fields, Field.Leaves]
  case ext =>
    rintro ⟨⟩ ⟨⟩ h
    simp only [fields, List.forall_mem_cons] at h
    simp_all

variable {document : Entries}

/-- A part of the configuration, from its table or without one. -/
theorem exists_part {β : Type} {name : String} (decode : Decoder β)
    {settings : List (Setting β)} {standard : β}
    (htable : ∀ value, document.lookup name = some value → ∃ entries, value = .table entries)
    (hdecode : ∀ entries, document.lookup name = some (.table entries) →
      ∃ b, decode (.table entries) = some b ∧ Describes settings entries standard b) :
    ∃ b, (∀ value, document.lookup name = some value → decode value = some b) ∧
      (document.lookup name = none → b = standard) ∧
      Describes settings (tableOf document name) standard b := by
  unfold tableOf
  cases hlookup : document.lookup name with
  | none => exact ⟨standard, nofun, fun _ => rfl, describes_nil settings standard⟩
  | some value =>
      obtain ⟨entries, rfl⟩ := htable value hlookup
      obtain ⟨b, hb, hsaid⟩ := hdecode entries hlookup
      refine ⟨b, ?_, nofun, hsaid⟩
      rintro _ ⟨⟩
      exact hb

/-- A document that fits leads to a configuration. -/
theorem exists_ofEntries? (h : FitsDocument document) :
    ∃ config, ofEntries? document = some config ∧ SaidBy document config := by
  have htable : ∀ {name entries}, document.lookup name = some (.table entries) →
      tableOf document name = entries := by
    intro name entries hlookup
    rw [tableOf, hlookup]
  obtain ⟨shared, hshared, hshared', saysShared⟩ :=
    exists_part SharedConfig.decode (h.tables "shared" (by decide)) fun entries hlookup => by
      obtain ⟨value, hvalue⟩ := h.named entries hlookup
      exact SharedConfig.exists_decode (htable hlookup ▸ h.shared) hvalue
  obtain ⟨driver, hdriver, hdriver', saysDriver⟩ :=
    exists_part DriverConfig.decode (h.tables "driver" (by decide)) fun entries hlookup =>
      exists_overlay? DriverConfig.fields_lawful DriverConfig.fields_implement
        (htable hlookup ▸ h.driver) .standard
  obtain ⟨control, hcontrol, hcontrol', saysControl⟩ :=
    exists_part ControlConfig.decode (h.tables "control" (by decide)) fun entries hlookup =>
      exists_overlay? ControlConfig.fields_lawful ControlConfig.fields_implement
        (htable hlookup ▸ h.control) .standard
  obtain ⟨simulation, hsimulation, hsimulation', saysSimulation⟩ :=
    exists_part SimulationConfig.decode (h.tables "simulation" (by decide)) fun entries hlookup =>
      exists_overlay? SimulationConfig.fields_lawful SimulationConfig.fields_implement
        (htable hlookup ▸ h.simulation) .standard
  refine ⟨⟨shared, driver, control, simulation⟩, ?_,
    saysShared, saysDriver, saysControl, saysSimulation⟩
  refine (overlay?_eq_some_iff fields_lawful).2 ⟨all_tolerates_iff.2 h.others, ?_⟩
  refine List.forall_mem_cons.2 ⟨Field.given_iff.2 ⟨hshared, hshared'⟩, ?_⟩
  refine List.forall_mem_cons.2 ⟨Field.given_iff.2 ⟨hdriver, hdriver'⟩, ?_⟩
  refine List.forall_mem_cons.2 ⟨Field.given_iff.2 ⟨hcontrol, hcontrol'⟩, ?_⟩
  exact List.forall_mem_singleton.2 (Field.given_iff.2 ⟨hsimulation, hsimulation'⟩)

/-- A spoiled document leads to none. -/
theorem ofEntries?_of_spoiled (h : SpoiledDocument document) : ofEntries? document = none := by
  cases h with
  | unnamed htable hname =>
      exact overlay?_of_decode_eq_none fields_lawful List.mem_cons_self htable
        (SharedConfig.decode_of_unnamed hname)
  | shared htable hflaw =>
      exact overlay?_of_decode_eq_none fields_lawful List.mem_cons_self htable
        (SharedConfig.decode_of_flaw hflaw)
  | driver htable hflaw =>
      exact overlay?_of_decode_eq_none fields_lawful
        (List.mem_cons_of_mem _ List.mem_cons_self) htable
        (overlay?_of_flaw DriverConfig.fields_lawful DriverConfig.fields_implement hflaw)
  | control htable hflaw =>
      exact overlay?_of_decode_eq_none fields_lawful
        (List.mem_cons_of_mem _ (List.mem_cons_of_mem _ List.mem_cons_self)) htable
        (overlay?_of_flaw ControlConfig.fields_lawful ControlConfig.fields_implement hflaw)
  | simulation htable hflaw =>
      refine overlay?_of_decode_eq_none fields_lawful (List.mem_cons_of_mem _
        (List.mem_cons_of_mem _ (List.mem_cons_of_mem _ List.mem_cons_self))) htable ?_
      exact overlay?_of_flaw SimulationConfig.fields_lawful SimulationConfig.fields_implement hflaw

end Config

namespace Config

/-- The keys that a table of a document knows. -/
def knownKeys (name : String) : List String :=
  if name = "shared" then SharedConfig.settings.map Setting.key
  else if name = "driver" then DriverConfig.settings.map Setting.key
  else if name = "control" then ControlConfig.settings.map Setting.key
  else SimulationConfig.settings.map Setting.key

/-- A document is put in another order, gets a table or a key that nobody knows, gets an
empty table for one that is missing, or one of its known tables is changed in such a
way; read from right to left, the same is undone. -/
inductive DocumentEdit : Entries → Entries → Prop
  | reorder {a b : Entries} (h : a.Perm b) : DocumentEdit a b
  | insert {a : Entries} (key : String) (value : Value) (hunknown : key ∉ tableNames)
      (hnew : key ∉ a.map Prod.fst) (hreadable : value.isReadable = true) :
      DocumentEdit a ((key, value) :: a)
  | insertEmpty {a : Entries} (name : String) (hname : name ∈ tableNames)
      (hoptional : name ≠ "shared") (hnew : name ∉ a.map Prod.fst) :
      DocumentEdit a ((name, .table []) :: a)
  | within {before after a b : Entries} (name : String) (hname : name ∈ tableNames)
      (hedit : TableEdit (knownKeys name) a b) :
      DocumentEdit (before ++ (name, .table a) :: after) (before ++ (name, .table b) :: after)

/-- No known table and no key of one is there twice. -/
structure DistinctTables (document : Entries) : Prop where
  keys : KeysDistinct document
  tables : ∀ name ∈ tableNames, ∀ entries, (name, .table entries) ∈ document →
    KeysDistinct entries

variable {a b : Entries}

theorem distinctTables_of_entries {source : Source} {document : Entries}
    (h : source.entries = .ok document) : DistinctTables document := by
  have hvalue : (Value.table document).Distinct := by
    cases source with
    | file bytes =>
        unfold Source.entries at h
        dsimp only at h
        split at h
        · rename_i entries hbytes
          obtain rfl := Except.ok.inj h
          exact distinct_of_ofBytes hbytes
        · cases h
    | _ => cases h
  cases hvalue with
  | table hkeys hentries =>
      refine ⟨hkeys, fun name _ entries hmem => ?_⟩
      cases hentries _ hmem with
      | table hinner _ => exact hinner

theorem DistinctTables.within {before after : Entries} {name : String}
    (hiff : KeysDistinct a → KeysDistinct b) (hname : name ∈ tableNames)
    (h : DistinctTables (before ++ (name, .table a) :: after)) :
    DistinctTables (before ++ (name, .table b) :: after) := by
  constructor
  case keys =>
    have hkeys := h.keys
    unfold KeysDistinct at hkeys ⊢
    rw [List.map_append, List.map_cons] at hkeys ⊢
    exact hkeys
  case tables =>
    intro name' hname' entries hmem
    rcases List.mem_append.1 hmem with hmem | hmem
    · exact h.tables name' hname' entries (List.mem_append_left _ hmem)
    · rcases List.mem_cons.1 hmem with heq | hmem
      · obtain ⟨rfl, htable⟩ := Prod.mk.inj heq
        obtain rfl := Value.table.inj htable
        exact hiff (h.tables name' hname a (List.mem_append_right _ List.mem_cons_self))
      · exact h.tables name' hname' entries
          (List.mem_append_right _ (List.mem_cons_of_mem _ hmem))

theorem DocumentEdit.distinctTables_iff (h : DocumentEdit a b) :
    DistinctTables a ↔ DistinctTables b := by
  cases h with
  | reorder hperm =>
      constructor
      · exact fun ha => ⟨(hperm.map Prod.fst).nodup_iff.1 ha.keys,
          fun name hname entries hmem => ha.tables name hname entries (hperm.mem_iff.2 hmem)⟩
      · exact fun hb => ⟨(hperm.map Prod.fst).nodup_iff.2 hb.keys,
          fun name hname entries hmem => hb.tables name hname entries (hperm.mem_iff.1 hmem)⟩
  | insert key value hunknown hnew hreadable =>
      constructor
      · refine fun ha => ⟨List.nodup_cons.2 ⟨hnew, ha.keys⟩, fun name hname entries hmem => ?_⟩
        rcases List.mem_cons.1 hmem with heq | hmem
        · obtain ⟨rfl, -⟩ := Prod.mk.inj heq
          exact absurd hname hunknown
        · exact ha.tables name hname entries hmem
      · exact fun hb => ⟨(List.nodup_cons.1 hb.keys).2, fun name hname entries hmem =>
          hb.tables name hname entries (List.mem_cons_of_mem _ hmem)⟩
  | insertEmpty name hname hoptional hnew =>
      constructor
      · refine fun ha => ⟨List.nodup_cons.2 ⟨hnew, ha.keys⟩, fun name' hname' entries hmem => ?_⟩
        rcases List.mem_cons.1 hmem with heq | hmem
        · obtain ⟨-, htable⟩ := Prod.mk.inj heq
          obtain rfl := Value.table.inj htable
          exact List.nodup_nil
        · exact ha.tables name' hname' entries hmem
      · exact fun hb => ⟨(List.nodup_cons.1 hb.keys).2, fun name' hname' entries hmem =>
          hb.tables name' hname' entries (List.mem_cons_of_mem _ hmem)⟩
  | within name hname hedit =>
      exact ⟨.within hedit.keysDistinct_iff.1 hname, .within hedit.keysDistinct_iff.2 hname⟩

/-- A known table that is changed within still gives the same part. -/
theorem decode_of_edit (hdistinct : KeysDistinct a) :
    ∀ f ∈ fields, TableEdit (knownKeys f.key) a b →
      f.decode (.table a) = f.decode (.table b) := by
  refine List.forall_mem_cons.2 ⟨fun hedit => ?_, ?_⟩
  · have hsame := overlay?_of_edit SharedDraft.fields_lawful
      (keys_eq_of_implements SharedDraft.fields_implement) hdistinct hedit .empty
    exact congrArg (Option.bind · SharedDraft.finish?) hsame
  refine List.forall_mem_cons.2 ⟨fun hedit => ?_, ?_⟩
  · exact overlay?_of_edit DriverConfig.fields_lawful
      (keys_eq_of_implements DriverConfig.fields_implement) hdistinct hedit _
  refine List.forall_mem_cons.2 ⟨fun hedit => ?_, ?_⟩
  · exact overlay?_of_edit ControlConfig.fields_lawful
      (keys_eq_of_implements ControlConfig.fields_implement) hdistinct hedit _
  refine List.forall_mem_singleton.2 fun hedit => ?_
  exact overlay?_of_edit SimulationConfig.fields_lawful
    (keys_eq_of_implements SimulationConfig.fields_implement) hdistinct hedit _

/-- An empty table leads to the defaults, unless it lacks a required key. -/
theorem decode_empty : ∀ f ∈ fields, f.key ≠ "shared" →
    f.decode (.table []) = some (f.get .standard) := by
  refine List.forall_mem_cons.2 ⟨fun h => absurd rfl h, ?_⟩
  exact List.forall_mem_cons.2 ⟨fun _ => rfl, List.forall_mem_cons.2 ⟨fun _ => rfl,
    List.forall_mem_singleton.2 fun _ => rfl⟩⟩

theorem keys_eq_tableNames : fields.map Field.key = tableNames :=
  rfl

theorem tolerates_of_mem {name : String} (h : name ∈ tableNames) (value : Value) :
    tolerates fields (name, value) = true := by
  rw [← keys_eq_tableNames, List.mem_map] at h
  obtain ⟨f, hf, rfl⟩ := h
  rw [tolerates, List.any_eq_true.2 ⟨f, hf, beq_self_eq_true f.key⟩, Bool.true_or]

/-- An empty table says nothing, like a missing one. -/
theorem given_insertEmpty {name : String} (hoptional : name ≠ "shared")
    (hnew : name ∉ a.map Prod.fst) {f : Field Config} (hf : f ∈ fields) (config : Config) :
    f.Given a .standard config ↔ f.Given ((name, .table []) :: a) .standard config := by
  by_cases hkey : f.key = name
  · subst hkey
    have hmissing : a.lookup f.key = none := by
      refine Option.eq_none_iff_forall_ne_some.2 fun value hlookup => hnew ?_
      exact List.mem_map.2 ⟨_, exists_mem_of_lookup hlookup, rfl⟩
    unfold Field.Given
    rw [hmissing, List.lookup_cons_self]
    dsimp only
    rw [decode_empty f hf hoptional, Option.some.injEq, eq_comm]
  · exact Field.given_congr (lookup_cons_of_ne hkey _ a).symm

/-- A known table that is changed within says the same. -/
theorem given_within {before after : Entries} {name : String}
    (hedit : TableEdit (knownKeys name) a b) (hdistinct : KeysDistinct a) {f : Field Config}
    (hf : f ∈ fields) (config : Config) :
    f.Given (before ++ (name, .table a) :: after) .standard config ↔
      f.Given (before ++ (name, .table b) :: after) .standard config := by
  unfold Field.Given
  rw [List.lookup_append, List.lookup_append]
  -- An entry that stands before the changed table is found first, and it stays.
  cases before.lookup f.key with
  | some value => rfl
  | none =>
      by_cases hkey : f.key = name
      · subst hkey
        rw [List.lookup_cons_self, List.lookup_cons_self]
        dsimp only [Option.none_or]
        rw [decode_of_edit hdistinct f hf hedit]
      · rw [lookup_cons_of_ne hkey, lookup_cons_of_ne hkey]

/-- One change that means nothing to a configuration. -/
theorem ofEntries?_of_edit (hdistinct : DistinctTables a) (h : DocumentEdit a b) :
    ofEntries? a = ofEntries? b := by
  cases h with
  | reorder hperm =>
      exact overlay?_of_edit fields_lawful keys_eq_tableNames hdistinct.keys (.reorder hperm) _
  | insert key value hunknown hnew hreadable =>
      exact overlay?_of_edit fields_lawful keys_eq_tableNames hdistinct.keys
        (.insert key value hunknown hnew hreadable) _
  | insertEmpty name hname hoptional hnew =>
      refine overlay?_congr fields_lawful ?_ fun f => given_insertEmpty hoptional hnew
      rw [List.all_cons, tolerates_of_mem hname, Bool.true_and]
  | @within before after a b name hname hedit =>
      have htable : KeysDistinct a := hdistinct.tables name hname a
        (List.mem_append_right _ List.mem_cons_self)
      refine overlay?_congr fields_lawful ?_ fun f => given_within hedit htable
      rw [List.all_append, List.all_append, List.all_cons, List.all_cons,
        tolerates_of_mem hname, tolerates_of_mem hname]

/-- Any number of changes, also undone ones. -/
theorem ofEntries?_of_edits (h : Relation.EqvGen DocumentEdit a b) :
    (DistinctTables a ↔ DistinctTables b) ∧
      (DistinctTables a → ofEntries? a = ofEntries? b) := by
  induction h with
  | rel a b hedit =>
      exact ⟨hedit.distinctTables_iff, fun ha => ofEntries?_of_edit ha hedit⟩
  | refl a => exact ⟨Iff.rfl, fun _ => rfl⟩
  | symm a b _ ih => exact ⟨ih.1.symm, fun hb => (ih.2 (ih.1.2 hb)).symm⟩
  | trans a b c _ _ ihab ihbc =>
      exact ⟨ihab.1.trans ihbc.1, fun ha => (ihab.2 ha).trans (ihbc.2 (ihab.1.1 ha))⟩

variable {source : Source} {document : Entries}

theorem load_eq (h : source.entries = .ok document) :
    load source =
      match ofEntries? document with
      | some config => .ok config
      | none => .error (.unreadable .mismatch) := by
  rw [load, Source.load, h]
  dsimp only
  cases ofEntries? document <;> rfl

/-- What loading a document comes to. -/
structure LoadedOver (source : Source) (document : Entries) : Prop where
  /-- Every setting is what its key says, or else the default. -/
  succeeds : FitsDocument document →
    ∃ config, load source = .ok config ∧ SaidBy document config
  fails : SpoiledDocument document → load source = .error (.unreadable .mismatch)
  /-- Order and unknown keys mean nothing, nor does an empty table in place of a
  missing one. -/
  edits : ∀ source' document', source'.entries = .ok document' →
    Relation.EqvGen DocumentEdit document document' → load source' = load source

/-- Configuration files are laid over the defaults. -/
theorem loaded_over_defaults (h : source.entries = .ok document) : LoadedOver source document := by
  constructor
  case succeeds =>
    intro hfits
    obtain ⟨config, hconfig, hsaid⟩ := exists_ofEntries? hfits
    exact ⟨config, by rw [load_eq h, hconfig], hsaid⟩
  case fails =>
    intro hspoiled
    rw [load_eq h, ofEntries?_of_spoiled hspoiled]
  case edits =>
    intro source' document' h' hedits
    have hsame := (ofEntries?_of_edits hedits).2 (distinctTables_of_entries h)
    rw [load_eq h, load_eq h', hsame]

/-- A file in which a text is written has the entries of the text. -/
theorem entries_toUTF8 {text : String} (h : ofText text = .ok document) :
    (Source.file text.toUTF8).entries = .ok document := by
  have hdecode : String.fromUTF8? text.toUTF8 = some text := by
    simp only [String.fromUTF8?, String.toUTF8_eq_toByteArray, dif_pos text.isValidUTF8]
    rfl
  rw [Source.entries, ofBytes, hdecode]
  dsimp only
  rw [h]

/-- Two settings of the control loop. -/
def terseFile : String :=
  "[control]\npoles = 12\nrpm_min = 300\n"

def terseDocument : Entries :=
  [("control", .table [("poles", .integer 12), ("rpm_min", .integer 300)])]

theorem ofText_terseFile : ofText terseFile = .ok terseDocument := by
  unfold ofText terseFile
  simp only [String.reduceToList]
  rfl

/-- The same in another order, with an empty table and a key that nobody knows. -/
def wordyFile : String :=
  "spare = 7\n[driver]\n[control]\nrpm_min = 300\npoles = 12\n"

def wordyDocument : Entries :=
  [("spare", .integer 7), ("driver", .table []),
    ("control", .table [("rpm_min", .integer 300), ("poles", .integer 12)])]

theorem ofText_wordyFile : ofText wordyFile = .ok wordyDocument := by
  unfold ofText wordyFile
  simp only [String.reduceToList]
  rfl

/-- A pole count below zero. -/
def negativeFile : String :=
  "[control]\npoles = -12\n"

def negativeDocument : Entries :=
  [("control", .table [("poles", .integer (-12))])]

theorem ofText_negativeFile : ofText negativeFile = .ok negativeDocument := by
  unfold ofText negativeFile
  simp only [String.reduceToList]
  rfl

theorem terseDocument_fits : FitsDocument terseDocument where
  tables := by
    intro name _ value hlookup
    have hmem := exists_mem_of_lookup hlookup
    obtain ⟨-, rfl⟩ := Prod.mk.inj (List.mem_singleton.1 hmem)
    exact ⟨_, rfl⟩
  named := by
    intro entries hlookup
    cases (show terseDocument.lookup "shared" = none by rfl).symm.trans hlookup
  shared := fitsTable_nil _
  driver := fitsTable_nil _
  control :=
    { values := by
        have hpoles : Setting.Fits ⟨"poles", Reading.word32, ControlConfig.poles⟩ (.integer 12) :=
          ⟨12, rfl⟩
        have hspeed : Setting.Fits ⟨"rpm_min", Reading.word32, ControlConfig.rpmMin⟩
          (.integer 300) := ⟨300, rfl⟩
        simp [ControlConfig.settings, tableOf, terseDocument, List.lookup_cons, hpoles, hspeed]
      others := by
        simp [ControlConfig.settings, tableOf, terseDocument, Value.isReadable] }
  simulation := fitsTable_nil _
  others := by
    intro entry hentry hunknown
    obtain rfl := List.mem_singleton.1 hentry
    exact absurd (by decide) hunknown

theorem wordyDocument_same : Relation.EqvGen DocumentEdit terseDocument wordyDocument := by
  have hswap : DocumentEdit terseDocument
      [("control", .table [("rpm_min", .integer 300), ("poles", .integer 12)])] :=
    @DocumentEdit.within [] [] _ _ "control" (by decide) (.reorder (.swap _ _ _))
  have hempty := @DocumentEdit.insertEmpty
    [("control", .table [("rpm_min", .integer 300), ("poles", .integer 12)])]
    "driver" (by decide) (by decide) (by decide)
  have hspare := @DocumentEdit.insert
    [("driver", .table []),
      ("control", .table [("rpm_min", .integer 300), ("poles", .integer 12)])]
    "spare" (.integer 7) (by decide) (by decide) rfl
  exact .trans _ _ _ (.rel _ _ hswap) (.trans _ _ _ (.rel _ _ hempty) (.rel _ _ hspare))

theorem negativeDocument_spoiled : SpoiledDocument negativeDocument := by
  refine .control rfl ⟨⟨"poles", Reading.word32, ControlConfig.poles⟩, ?_, .integer (-12), rfl,
    trivial, ?_⟩
  · exact List.mem_iff_getElem.2 ⟨4, by decide, rfl⟩
  · rintro ⟨x, hx⟩
    have hneg : (-12 : Int) = x.toNat := Value.integer.inj hx
    omega

/-- Twelve poles and a lowest speed of 300 turns a minute, whether said briefly or at
length, and no configuration with a number of poles below zero. -/
theorem loaded_over_defaults_poles :
    (∃ config, load (.file terseFile.toUTF8) = .ok config ∧ config.control.poles = 12 ∧
      config.control.rpmMin = 300 ∧ config.control.rtPriority = 0 ∧ config.simulation.poles = 14) ∧
      load (.file wordyFile.toUTF8) = load (.file terseFile.toUTF8) ∧
      load (.file negativeFile.toUTF8) = .error (.unreadable .mismatch) := by
  have hover := loaded_over_defaults (entries_toUTF8 ofText_terseFile)
  have hnegative := loaded_over_defaults (entries_toUTF8 ofText_negativeFile)
  refine ⟨?_, hover.edits _ _ (entries_toUTF8 ofText_wordyFile) wordyDocument_same,
    hnegative.fails negativeDocument_spoiled⟩
  obtain ⟨config, hconfig, hsaid⟩ := hover.succeeds terseDocument_fits
  have hpoles : Value.integer 12 = .integer config.control.poles.toNat :=
    hsaid.control ⟨"poles", Reading.word32, ControlConfig.poles⟩
      (List.mem_iff_getElem.2 ⟨4, by decide, rfl⟩)
  have hspeed : Value.integer 300 = .integer config.control.rpmMin.toNat :=
    hsaid.control ⟨"rpm_min", Reading.word32, ControlConfig.rpmMin⟩
      (List.mem_iff_getElem.2 ⟨6, by decide, rfl⟩)
  have hpriority : config.control.rtPriority = 0 :=
    hsaid.control ⟨"rt_priority", Reading.signed32, ControlConfig.rtPriority⟩
      (List.mem_iff_getElem.2 ⟨9, by decide, rfl⟩)
  have hrotor : config.simulation.poles = 14 :=
    hsaid.simulation ⟨"poles", Reading.word32, SimulationConfig.poles⟩
      (List.mem_iff_getElem.2 ⟨3, by decide, rfl⟩)
  refine ⟨config, hconfig, ?_, ?_, hpriority, hrotor⟩
  · exact UInt32.toNat_inj.1 (Int.ofNat_inj.1 (Value.integer.inj hpoles).symm)
  · exact UInt32.toNat_inj.1 (Int.ofNat_inj.1 (Value.integer.inj hspeed).symm)

/-- A pole constant that 64 bits cannot hold. -/
def vastFile : String :=
  "[simulation]\nkv = 18446744073709551616\n"

theorem ofText_vastFile :
    ofText vastFile = .ok [("simulation", .table [("kv", .integer 18446744073709551616)])] := by
  unfold ofText vastFile
  simp only [String.reduceToList]
  rfl

/-- A number that 128 bits cannot hold, under a key that nobody knows. -/
def spareFile : String :=
  "[control]\nspare = 340282366920938463463374607431768211456\n"

theorem ofText_spareFile :
    ofText spareFile = .ok [("control", .table [("spare", .unreadable)])] := by
  unfold ofText spareFile
  simp only [String.reduceToList]
  rfl

/-- Two files that lead to no configuration: a whole number for a setting that is a
number, and a table that leaves all settings alone. -/
theorem numbers_out_of_reach :
    (Source.file vastFile.toUTF8).entries =
        .ok [("simulation", .table [("kv", .integer 18446744073709551616)])] ∧
      load (.file vastFile.toUTF8) = .error (.unreadable .mismatch) ∧
      (Source.file spareFile.toUTF8).entries =
        .ok [("control", .table [("spare", .unreadable)])] ∧
      load (.file spareFile.toUTF8) = .error (.unreadable .mismatch) := by
  have hvast := entries_toUTF8 ofText_vastFile
  have hspare := entries_toUTF8 ofText_spareFile
  refine ⟨hvast, ?_, hspare, ?_⟩
  · rw [load_eq hvast]
    rfl
  · rw [load_eq hspare]
    rfl

end Config
end MotorSupervisor
