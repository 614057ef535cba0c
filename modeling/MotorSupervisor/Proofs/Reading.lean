import Mathlib.Algebra.Group.Int.Defs
import Mathlib.Data.List.Forall2
import MotorSupervisor.Proofs.Overlay

/-!
# Readings of settings

What a value says of a setting is a `Reading`, stated without regard to how the value
is decoded.  A list of `Setting`s is a table as its users see it: keys, and what their
values say.  A table whose values can all be read leads to settings, and a scalar that
cannot be read spoils it.

**Definitions.**
* `Reading`: what a value says of a setting; `Decoder.Reads`: a decoder for it.
* `Setting`: a key with its reading; `Field.Implements`: a field for it.
* `Describes`: settings that a table leads to; `FitsTable`, `HasFlaw`: a table that
  leads to settings, and one that does not.

**Results.**
* `Decoder.reads_text` to `Decoder.reads_severity`: the decoders of all kinds of settings.
* `exists_overlay?`, `overlay?_of_flaw`: success and failure of a table.
-/

namespace MotorSupervisor

open Toml

variable {α : Type} {fields : List (Field α)} {entries : Entries} {start result : α}

/-- What a value says of a setting, however it is decoded. -/
abbrev Reading (β : Type) := Value → β → Prop

namespace Reading

/-- A text is itself. -/
def text : Reading String :=
  fun value x => value = .string x

/-- A truth value is itself. -/
def truth : Reading Bool :=
  fun value x => value = .boolean x

/-- An integer from `0` to `2 ^ 32 - 1`. -/
def word32 : Reading UInt32 :=
  fun value x => value = .integer x.toNat

/-- An integer from `0` to `2 ^ 64 - 1`. -/
def word64 : Reading UInt64 :=
  fun value x => value = .integer x.toNat

/-- An integer from `-2 ^ 31` to `2 ^ 31 - 1`. -/
def signed32 : Reading Int32 :=
  fun value x => value = .integer x.toInt

/-- A float, or an integer of 64 bits with or without a sign, to the nearest number of
the 32-bit format. -/
def number : Reading Single :=
  fun value x =>
    (∃ y : Double, value = .float y ∧ y.toFormat Format.single = x) ∨
      ∃ i : Int, value = .integer i ∧ (-2 ^ 63 ≤ i ∧ i < 2 ^ 64) ∧ Binary.ofInt i = x

/-- The name of a severity. -/
def severityName : LogLevel → String
  | .trace => "trace"
  | .debug => "debug"
  | .info => "info"
  | .warn => "warn"
  | .error => "error"

/-- A severity by its name. -/
def severity : Reading LogLevel :=
  fun value x => value = .string (severityName x)

end Reading

/-- On values without any values inside, a decoder goes by a reading. -/
structure Decoder.Reads {β : Type} (decode : Decoder β) (reading : Reading β) : Prop where
  scalar : ∀ value x, reading value x → value.IsScalar
  decode_iff : ∀ value, value.IsScalar → ∀ x, decode value = some x ↔ reading value x

namespace Decoder

theorem integer_eq_some_iff {low high i : Int} {value : Value} :
    integer low high value = some i ↔ value = .integer i ∧ low ≤ i ∧ i ≤ high := by
  cases value with
  | integer j =>
      rw [integer, Value.integer.injEq]
      by_cases hrange : low ≤ j ∧ j ≤ high
      · rw [if_pos hrange, Option.some.injEq]
        exact ⟨fun h => ⟨h, h ▸ hrange⟩, And.left⟩
      · rw [if_neg hrange]
        exact ⟨nofun, fun h => absurd (h.1 ▸ h.2) hrange⟩
  | _ => exact ⟨nofun, fun h => nomatch h.1⟩

theorem reads_text : Reads string Reading.text := by
  constructor
  case scalar =>
    rintro value x rfl
    exact trivial
  case decode_iff =>
    intro value hscalar x
    cases value with
    | string text => simp [string, Reading.text]
    | _ => exact ⟨nofun, nofun⟩

theorem reads_truth : Reads boolean Reading.truth := by
  constructor
  case scalar =>
    rintro value x rfl
    exact trivial
  case decode_iff =>
    intro value hscalar x
    cases value with
    | boolean b => simp [boolean, Reading.truth]
    | _ => exact ⟨nofun, nofun⟩

/-- The words between two bounds, if they are the integers between them. -/
theorem reads_integer {β : Type} {low high : Int} {ofInt : Int → β} {toInt : β → Int}
    (hof : ∀ i, low ≤ i → i ≤ high → toInt (ofInt i) = i)
    (hto : ∀ x, low ≤ toInt x ∧ toInt x ≤ high ∧ ofInt (toInt x) = x) :
    Reads (fun value => (integer low high value).map ofInt)
      (fun value x => value = .integer (toInt x)) := by
  constructor
  case scalar =>
    rintro value x rfl
    exact trivial
  case decode_iff =>
    intro value hscalar x
    rw [Option.map_eq_some_iff]
    constructor
    · rintro ⟨i, hi, rfl⟩
      obtain ⟨rfl, hlow, hhigh⟩ := integer_eq_some_iff.1 hi
      rw [hof i hlow hhigh]
    · rintro rfl
      obtain ⟨hlow, hhigh, hsame⟩ := hto x
      exact ⟨toInt x, integer_eq_some_iff.2 ⟨rfl, hlow, hhigh⟩, hsame⟩

theorem reads_word32 : Reads word32 Reading.word32 := by
  refine reads_integer (fun i hlow hhigh => ?_) fun x => ⟨?_, ?_, ?_⟩
  · have hfits : i.toNat < UInt32.size := by omega
    rw [UInt32.toNat_ofNat_of_lt' hfits]
    omega
  · exact Int.natCast_nonneg _
  · have hfits := x.toNat_lt_size
    omega
  · rw [Int.toNat_natCast, UInt32.ofNat_toNat]

theorem reads_word64 : Reads word64 Reading.word64 := by
  refine reads_integer (fun i hlow hhigh => ?_) fun x => ⟨?_, ?_, ?_⟩
  · have hfits : i.toNat < UInt64.size := by omega
    rw [UInt64.toNat_ofNat_of_lt' hfits]
    omega
  · exact Int.natCast_nonneg _
  · have hfits := x.toNat_lt_size
    omega
  · rw [Int.toNat_natCast, UInt64.ofNat_toNat]

theorem reads_signed32 : Reads signed32 Reading.signed32 := by
  refine reads_integer (fun i hlow hhigh => ?_) fun x => ⟨?_, ?_, ?_⟩
  · exact Int32.toInt_ofInt_of_le hlow (Int.lt_of_le_of_lt hhigh (by decide))
  · exact x.minValue_le_toInt
  · exact x.toInt_le
  · exact x.ofInt_toInt

theorem reads_number : Reads single Reading.number := by
  constructor
  case scalar =>
    rintro value x (⟨y, rfl, -⟩ | ⟨i, rfl, -⟩) <;> exact trivial
  case decode_iff =>
    intro value hscalar x
    cases value with
    | float y => simp [single, Reading.number]
    | integer i =>
        have hbounds : (Int64.minValue.toInt ≤ i ∧ i < UInt64.size) ↔
            (-2 ^ 63 ≤ i ∧ i < 2 ^ 64) := Iff.rfl
        rw [single]
        by_cases hrange : -2 ^ 63 ≤ i ∧ i < 2 ^ 64
        · rw [if_pos (hbounds.2 hrange), Option.some.injEq]
          refine ⟨fun h => Or.inr ⟨i, rfl, hrange, h⟩, ?_⟩
          rintro (⟨y, h, -⟩ | ⟨j, h, -, hj⟩)
          · cases h
          · cases h
            exact hj
        · rw [if_neg (mt hbounds.1 hrange)]
          refine ⟨nofun, ?_⟩
          rintro (⟨y, h, -⟩ | ⟨j, h, hj, -⟩)
          · cases h
          · cases h
            exact absurd hj hrange
    | _ =>
        refine ⟨nofun, ?_⟩
        rintro (⟨y, h, -⟩ | ⟨i, h, -⟩) <;> cases h

theorem reads_severity : Reads logLevel Reading.severity := by
  constructor
  case scalar =>
    rintro value x rfl
    exact trivial
  case decode_iff =>
    intro value hscalar x
    cases value with
    | string name =>
        constructor
        · intro h
          have hmem := exists_mem_of_lookup h
          simp only [List.mem_cons, Prod.mk.injEq, List.not_mem_nil, or_false] at hmem
          rcases hmem with ⟨rfl, rfl⟩ | ⟨rfl, rfl⟩ | ⟨rfl, rfl⟩ | ⟨rfl, rfl⟩ | ⟨rfl, rfl⟩ <;> rfl
        · rintro ⟨⟩
          cases x <;> rfl
    | table entries => exact absurd hscalar id
    | _ => exact ⟨nofun, nofun⟩

end Decoder

/-- A key of a table, with the setting that its value stands for. -/
structure Setting (α : Type) where
  key : String
  {β : Type}
  /-- What the value of the key says. -/
  reading : Reading β
  /-- The setting among all settings. -/
  get : α → β

namespace Setting

/-- The value is of the type of the setting and within its range. -/
def Fits (s : Setting α) (value : Value) : Prop :=
  ∃ x, s.reading value x

/-- The setting is what the value of its key says; without one it is as it was. -/
def Said (s : Setting α) (entries : Entries) (start result : α) : Prop :=
  match entries.lookup s.key with
  | some value => s.reading value (s.get result)
  | none => s.get result = s.get start

end Setting

/-- A field that goes by the reading of a setting. -/
inductive Field.Implements : Field α → Setting α → Prop
  | intro {β : Type} {key : String} {decode : Decoder β} {reading : Reading β} {get : α → β}
      {set : β → α → α} (hreads : decode.Reads reading) :
      Implements ⟨key, decode, get, set⟩ ⟨key, reading, get⟩

/-- Settings that are what a table says, and otherwise as they were. -/
def Describes (settings : List (Setting α)) (entries : Entries) (start result : α) : Prop :=
  ∀ s ∈ settings, s.Said entries start result

/-- Every value of a known key fits its setting, and all others can be read. -/
structure FitsTable (settings : List (Setting α)) (entries : Entries) : Prop where
  values : ∀ s ∈ settings, ∀ value, entries.lookup s.key = some value → s.Fits value
  others : ∀ entry ∈ entries, entry.1 ∉ settings.map Setting.key → entry.2.isReadable = true

/-- The value of a known key is a scalar that does not fit its setting. -/
def HasFlaw (settings : List (Setting α)) (entries : Entries) : Prop :=
  ∃ s ∈ settings, ∃ value, entries.lookup s.key = some value ∧ value.IsScalar ∧ ¬ s.Fits value

/-- Nothing is said without entries. -/
theorem describes_nil (settings : List (Setting α)) (start : α) :
    Describes settings [] start start :=
  fun _ _ => rfl

theorem fitsTable_nil (settings : List (Setting α)) : FitsTable settings [] :=
  ⟨fun _ _ _ h => (nomatch h), fun _ h => absurd h List.not_mem_nil⟩

namespace Field.Implements

variable {f : Field α} {s : Setting α} {value : Value}

theorem key_eq (h : f.Implements s) : f.key = s.key := by
  cases h
  rfl

theorem decode_of_fits (h : f.Implements s) (hfits : s.Fits value) :
    ∃ x, f.decode value = some x := by
  cases h with
  | intro hreads =>
      obtain ⟨x, hx⟩ := hfits
      exact ⟨x, (hreads.decode_iff _ (hreads.scalar _ _ hx) x).2 hx⟩

theorem decode_of_not_fits (h : f.Implements s) (hscalar : value.IsScalar)
    (hflaw : ¬ s.Fits value) : f.decode value = none := by
  cases h with
  | intro hreads =>
      refine Option.eq_none_iff_forall_ne_some.2 fun x hx => hflaw ?_
      exact ⟨x, (hreads.decode_iff _ hscalar x).1 hx⟩

theorem said_of_given (h : f.Implements s) (hgiven : f.Given entries start result)
    (hfits : ∀ value, entries.lookup s.key = some value → s.Fits value) :
    s.Said entries start result := by
  cases h with
  | intro hreads =>
      unfold Field.Given at hgiven
      unfold Setting.Said
      split at hgiven
      · rename_i value hlookup
        obtain ⟨x, hx⟩ := hfits value hlookup
        rw [hlookup]
        exact (hreads.decode_iff _ (hreads.scalar _ _ hx) _).1 hgiven
      · rename_i hlookup
        rw [hlookup]
        exact hgiven

end Field.Implements

section Table

variable {settings : List (Setting α)}

theorem keys_eq_of_implements (h : List.Forall₂ Field.Implements fields settings) :
    fields.map Field.key = settings.map Setting.key := by
  induction h with
  | nil => rfl
  | cons hfirst _ ih => rw [List.map_cons, List.map_cons, hfirst.key_eq, ih]

theorem exists_mem_of_forall₂ {β γ : Type*} {R : β → γ → Prop} {xs : List β} {ys : List γ}
    (h : List.Forall₂ R xs ys) : ∀ x ∈ xs, ∃ y ∈ ys, R x y := by
  induction h with
  | nil => exact fun _ hx => absurd hx List.not_mem_nil
  | cons hfirst _ ih =>
      refine List.forall_mem_cons.2 ⟨⟨_, List.mem_cons_self, hfirst⟩, fun x hx => ?_⟩
      obtain ⟨y, hy, hxy⟩ := ih x hx
      exact ⟨y, List.mem_cons_of_mem _ hy, hxy⟩

theorem exists_setting (h : List.Forall₂ Field.Implements fields settings) :
    ∀ f ∈ fields, ∃ s ∈ settings, f.Implements s :=
  exists_mem_of_forall₂ h

theorem exists_field (h : List.Forall₂ Field.Implements fields settings) :
    ∀ s ∈ settings, ∃ f ∈ fields, f.Implements s := by
  have hflip : List.Forall₂ (flip Field.Implements) settings fields := h.flip
  exact exists_mem_of_forall₂ hflip

/-- A table whose values fit leads to the settings that it describes. -/
theorem exists_overlay? (hlawful : Field.Lawful fields)
    (himplements : List.Forall₂ Field.Implements fields settings)
    (hfits : FitsTable settings entries) (start : α) :
    ∃ result, overlay? fields entries start = some result ∧
      Describes settings entries start result := by
  have htolerates : entries.all (tolerates fields) = true := by
    rw [all_tolerates_iff, keys_eq_of_implements himplements]
    exact hfits.others
  have hdecode : ∀ f ∈ fields, ∀ value, entries.lookup f.key = some value →
      ∃ x, f.decode value = some x := by
    intro f hf value hlookup
    obtain ⟨s, hs, hfs⟩ := exists_setting himplements f hf
    rw [hfs.key_eq] at hlookup
    exact hfs.decode_of_fits (hfits.values s hs value hlookup)
  obtain ⟨result, hresult⟩ := Field.exists_layAll hdecode start
  refine ⟨result, by rw [overlay?_eq, if_pos htolerates, hresult], fun s hs => ?_⟩
  obtain ⟨f, hf, hfs⟩ := exists_field himplements s hs
  exact hfs.said_of_given (Field.given_of_layAll hlawful.get_set hlawful.apart hresult f hf)
    (hfits.values s hs)

/-- One flaw spoils a table. -/
theorem overlay?_of_flaw (hlawful : Field.Lawful fields)
    (himplements : List.Forall₂ Field.Implements fields settings)
    (hflaw : HasFlaw settings entries) : overlay? fields entries start = none := by
  obtain ⟨s, hs, value, hlookup, hscalar, hunfit⟩ := hflaw
  obtain ⟨f, hf, hfs⟩ := exists_field himplements s hs
  rw [← hfs.key_eq] at hlookup
  exact overlay?_of_decode_eq_none hlawful hf hlookup (hfs.decode_of_not_fits hscalar hunfit)

end Table

end MotorSupervisor
