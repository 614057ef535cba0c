import MotorSupervisor.Config.Overlay
import MotorSupervisor.Proofs.Toml.DistinctKeys

/-!
# Laying a table over settings

The fields of a table are settings that do not depend on each other, and together they
are all settings there are.  So it does not matter in which order they are looked up,
and the outcome is known field by field: what the value of the key says, or what was
there before.  Tables that say the same of every field lead to the same settings.

**Definitions.**
* `Field.Lawful`: independent fields that are all there is.
* `Field.Given`: what a table says of a field.
* `TableEdit`: changes of a table that mean nothing.

**Results.**
* `overlay?_eq_some_iff`: the outcome field by field.
* `overlay?_of_decode_eq_none`: one bad value.
* `overlay?_congr`: tables that say the same.
* `overlay?_of_edit`: one change that means nothing.
-/

namespace MotorSupervisor

open Toml

variable {α : Type}

namespace Field

/-- Changing this field leaves the other one alone. -/
def Leaves (f g : Field α) : Prop :=
  ∀ x a, g.get (f.set x a) = g.get a

/-- The fields are independent settings, and there are no others. -/
structure Lawful (fields : List (Field α)) : Prop where
  get_set : ∀ f ∈ fields, ∀ x a, f.get (f.set x a) = x
  apart : fields.Pairwise fun f g => f.Leaves g ∧ g.Leaves f
  ext : ∀ a b, (∀ f ∈ fields, f.get a = f.get b) → a = b

/-- One step of laying a table over settings. -/
def lay (entries : Entries) (settings : α) (f : Field α) : Option α :=
  match entries.lookup f.key with
  | some value => f.assign value settings
  | none => some settings

/-- What a table says of a field: the value of its key, or else nothing new. -/
def Given (f : Field α) (entries : Entries) (start result : α) : Prop :=
  match entries.lookup f.key with
  | some value => f.decode value = some (f.get result)
  | none => f.get result = f.get start

variable {f g : Field α} {fields : List (Field α)} {entries : Entries}
  {start next result : α}

theorem given_iff :
    f.Given entries start result ↔
      (∀ value, entries.lookup f.key = some value → f.decode value = some (f.get result)) ∧
        (entries.lookup f.key = none → f.get result = f.get start) := by
  unfold Given
  cases entries.lookup f.key <;> simp

theorem get_of_lay (hleaves : f.Leaves g) (h : f.lay entries start = some next) :
    g.get next = g.get start := by
  unfold lay at h
  split at h
  · obtain ⟨x, -, rfl⟩ := Option.map_eq_some_iff.1 h
    exact hleaves x start
  · rw [Option.some.inj h]

theorem given_of_lay (hset : ∀ x a, f.get (f.set x a) = x)
    (h : f.lay entries start = some next) : f.Given entries start next := by
  unfold lay at h
  unfold Given
  split
  · rename_i value hlookup
    rw [hlookup] at h
    obtain ⟨x, hdecode, rfl⟩ := Option.map_eq_some_iff.1 h
    rw [hdecode, hset]
  · rename_i hlookup
    rw [hlookup] at h
    rw [Option.some.inj h]

/-- Any number of other fields leave a field alone. -/
theorem get_of_layAll (hleaves : ∀ f ∈ fields, f.Leaves g)
    (h : fields.foldlM (lay entries) start = some result) : g.get result = g.get start := by
  induction fields generalizing start with
  | nil => rw [Option.some.inj h]
  | cons f fields ih =>
      rw [List.forall_mem_cons] at hleaves
      rw [List.foldlM_cons] at h
      obtain ⟨next, hnext, hrest⟩ := Option.bind_eq_some_iff.1 h
      rw [ih hleaves.2 hrest, get_of_lay hleaves.1 hnext]

/-- The last step that matters to a field is its own. -/
theorem given_of_layAll (hset : ∀ f ∈ fields, ∀ x a, f.get (f.set x a) = x)
    (hapart : fields.Pairwise fun f g => f.Leaves g ∧ g.Leaves f)
    (h : fields.foldlM (lay entries) start = some result) :
    ∀ f ∈ fields, f.Given entries start result := by
  induction fields generalizing start with
  | nil => exact fun _ hf => absurd hf List.not_mem_nil
  | cons f fields ih =>
      rw [List.forall_mem_cons] at hset
      obtain ⟨hhead, htail⟩ := List.pairwise_cons.1 hapart
      rw [List.foldlM_cons] at h
      obtain ⟨next, hnext, hrest⟩ := Option.bind_eq_some_iff.1 h
      refine List.forall_mem_cons.2 ⟨?_, fun g hg => ?_⟩
      -- The fields that come later leave `f` alone; `f` has left them alone before.
      · have hkept : f.get result = f.get next :=
          get_of_layAll (fun g hg => (hhead g hg).2) hrest
        have hgiven := given_of_lay hset.1 hnext
        unfold Given at hgiven ⊢
        rwa [hkept]
      · have hkept : g.get next = g.get start := get_of_lay (hhead g hg).1 hnext
        have hgiven := ih hset.2 htail hrest g hg
        unfold Given at hgiven ⊢
        rwa [← hkept]

theorem exists_layAll
    (h : ∀ f ∈ fields, ∀ value, entries.lookup f.key = some value → ∃ x, f.decode value = some x)
    (start : α) : ∃ result, fields.foldlM (lay entries) start = some result := by
  induction fields generalizing start with
  | nil => exact ⟨start, rfl⟩
  | cons f fields ih =>
      rw [List.forall_mem_cons] at h
      have hnext : ∃ next, f.lay entries start = some next := by
        unfold lay
        split
        · rename_i value hlookup
          obtain ⟨x, hx⟩ := h.1 value hlookup
          exact ⟨f.set x start, by rw [assign, hx]; rfl⟩
        · exact ⟨start, rfl⟩
      obtain ⟨next, hnext⟩ := hnext
      obtain ⟨result, hresult⟩ := ih h.2 next
      exact ⟨result, by rw [List.foldlM_cons, hnext]; exact hresult⟩

/-- Settings are known when every field of them is given. -/
theorem eq_of_given (h : Lawful fields) (hnext : ∀ f ∈ fields, f.Given entries start next)
    (hresult : ∀ f ∈ fields, f.Given entries start result) : next = result := by
  refine h.ext _ _ fun f hf => ?_
  have hleft := hnext f hf
  have hright := hresult f hf
  unfold Given at hleft hright
  split at hleft
  · rename_i value hlookup
    rw [hlookup] at hright
    exact Option.some.inj (hleft.symm.trans hright)
  · rename_i hlookup
    rw [hlookup] at hright
    exact hleft.trans hright.symm

end Field

variable {fields : List (Field α)} {entries entries' : Entries} {start result : α}

theorem overlay?_eq (fields : List (Field α)) (entries : Entries) (start : α) :
    overlay? fields entries start =
      if entries.all (tolerates fields) then fields.foldlM (Field.lay entries) start
      else none :=
  rfl

/-- The outcome of laying a table over settings. -/
theorem overlay?_eq_some_iff (h : Field.Lawful fields) :
    overlay? fields entries start = some result ↔
      entries.all (tolerates fields) = true ∧ ∀ f ∈ fields, f.Given entries start result := by
  rw [overlay?_eq]
  constructor
  · intro hresult
    split at hresult
    · rename_i htolerates
      exact ⟨htolerates, Field.given_of_layAll h.get_set h.apart hresult⟩
    · cases hresult
  · rintro ⟨htolerates, hgiven⟩
    rw [if_pos htolerates]
    have hdecode : ∀ f ∈ fields, ∀ value, entries.lookup f.key = some value →
        ∃ x, f.decode value = some x := by
      intro f hf value hlookup
      have hf' := hgiven f hf
      rw [Field.Given, hlookup] at hf'
      exact ⟨_, hf'⟩
    obtain ⟨found, hfound⟩ := Field.exists_layAll hdecode start
    have hsame := Field.eq_of_given h (Field.given_of_layAll h.get_set h.apart hfound) hgiven
    rw [hfound, hsame]

theorem Field.given_congr {f : Field α} (h : entries.lookup f.key = entries'.lookup f.key) :
    f.Given entries start result ↔ f.Given entries' start result := by
  rw [given_iff, given_iff, h]

/-- One value that is not decoded spoils a table. -/
theorem overlay?_of_decode_eq_none (h : Field.Lawful fields) {f : Field α} (hf : f ∈ fields)
    {value : Value} (hlookup : entries.lookup f.key = some value)
    (hdecode : f.decode value = none) : overlay? fields entries start = none := by
  refine Option.eq_none_iff_forall_ne_some.2 fun result hresult => ?_
  have hgiven := ((overlay?_eq_some_iff h).1 hresult).2 f hf
  cases hdecode.symm.trans ((Field.given_iff.1 hgiven).1 value hlookup)

/-- Tables that are tolerated alike and say the same of every field. -/
theorem overlay?_congr (h : Field.Lawful fields)
    (htolerates : entries.all (tolerates fields) = entries'.all (tolerates fields))
    (hgiven : ∀ f ∈ fields, ∀ result,
      f.Given entries start result ↔ f.Given entries' start result) :
    overlay? fields entries start = overlay? fields entries' start := by
  refine Option.ext fun result => ?_
  rw [overlay?_eq_some_iff h, overlay?_eq_some_iff h, htolerates]
  exact and_congr_right fun _ => forall₂_congr fun f hf => hgiven f hf result

theorem all_tolerates_iff :
    entries.all (tolerates fields) = true ↔
      ∀ entry ∈ entries, entry.1 ∉ fields.map Field.key → entry.2.isReadable = true := by
  rw [List.all_eq_true]
  refine forall₂_congr fun entry _ => ?_
  have hknown : (fields.any (·.key == entry.1)) = true ↔ entry.1 ∈ fields.map Field.key := by
    rw [List.any_eq_true, List.mem_map]
    exact exists_congr fun f => and_congr_right fun _ => beq_iff_eq
  rw [tolerates, Bool.or_eq_true, hknown]
  exact Decidable.or_iff_not_imp_left

/-- A table is put in another order or gets a key that nobody knows; read from right to
left, such a key is removed. -/
inductive TableEdit (known : List String) : Entries → Entries → Prop
  | reorder {a b : Entries} (h : a.Perm b) : TableEdit known a b
  | insert {a : Entries} (key : String) (value : Value) (hunknown : key ∉ known)
      (hnew : key ∉ a.map Prod.fst) (hreadable : value.isReadable = true) :
      TableEdit known a ((key, value) :: a)

section TableEdit

variable {known : List String} {a b : Entries}

theorem TableEdit.keysDistinct_iff (h : TableEdit known a b) :
    KeysDistinct a ↔ KeysDistinct b := by
  cases h with
  | reorder hperm => exact (hperm.map Prod.fst).nodup_iff
  | insert key value hunknown hnew hreadable =>
      exact ⟨fun ha => List.nodup_cons.2 ⟨hnew, ha⟩, fun hb => (List.nodup_cons.1 hb).2⟩

/-- One change that means nothing to the fields of a table. -/
theorem overlay?_of_edit (hlawful : Field.Lawful fields) (hknown : fields.map Field.key = known)
    (hdistinct : KeysDistinct a) (h : TableEdit known a b) (start : α) :
    overlay? fields a start = overlay? fields b start := by
  cases h with
  | reorder hperm =>
      refine overlay?_congr hlawful ?_ fun f _ _ =>
        Field.given_congr (lookup_eq_of_perm hdistinct hperm f.key)
      rw [Bool.eq_iff_iff, List.all_eq_true, List.all_eq_true]
      exact forall_congr' fun entry => by rw [hperm.mem_iff]
  | insert key value hunknown hnew hreadable =>
      refine overlay?_congr hlawful ?_ fun f hf _ => Field.given_congr ?_
      · have htolerates : tolerates fields (key, value) = true := by
          rw [tolerates, hreadable, Bool.or_true]
        rw [List.all_cons, htolerates, Bool.true_and]
      · have hne : f.key ≠ key := by
          rintro rfl
          exact hunknown (hknown ▸ List.mem_map_of_mem hf)
        exact (lookup_cons_of_ne hne value a).symm

end TableEdit

end MotorSupervisor
