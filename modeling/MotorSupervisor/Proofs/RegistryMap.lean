import Mathlib.Data.List.Induction
import Mathlib.Tactic.SplitIfs
import MotorSupervisor.Proofs.ByteOrder
import MotorSupervisor.Registry

/-!
# The registry as an ordered map

Whatever calls have been made on a registry, and however many of them clashed,
it is the map from each name to the factory of the latest call for it.  A clash
is a report about the map before the call and not a failure of the call: the
new factory is in place and the registry goes on.  Lookup, membership, listing
and creation are views of that one map, and the list is in the order of the
bytes.

**Definitions.**
* `Registration`: a call that adds to a registry.
* `Registry.registerAll`: a registry after some calls.
* `Registry.latest?`: the factory that some calls leave under a name.
* `Registry.IsMapOf`: what a caller sees of a registry after some calls.

**Results.**
* `factory?_perform`: one call, seen from every name.
* `factory?_registerAll`: all calls, seen from every name.
* `contains_iff_listed`, `contains_iff_created`, `names_ascending`: the views
  agree, and the list is in order.
* `ordered_map`: all views after every list of calls.
-/

namespace MotorSupervisor

/-- A call that adds to a registry. -/
inductive Registration (δ : Type)
  | register (name : String) (factory : Factory δ)
  | builtin

namespace Registration

variable {δ : Type}

/-- The registries that a caller can start from. -/
inductive Origin
  | empty
  | builtin

/-- The name that a call takes. -/
def name : Registration δ → String
  | .register name _ => name
  | .builtin => DriverConfig.simulation

/-- The factory that a call puts under its name. -/
def factory (embed : SimulatedDriver → δ) : Registration δ → Factory δ
  | .register _ factory => factory
  | .builtin => Registry.simulatedFactory embed

/-- Make a call on a registry. -/
def perform (embed : SimulatedDriver → δ) :
    Registration δ → Registry δ → Registry δ × Option Clash
  | .register name factory => Registry.register name factory
  | .builtin => Registry.registerBuiltin embed

/-- The registry to start from. -/
def Origin.registry (embed : SimulatedDriver → δ) : Origin → Registry δ
  | .empty => Registry.empty
  | .builtin => Registry.builtin embed

/-- The calls that lead to the registry to start from. -/
def Origin.calls : Origin → List (Registration δ)
  | .empty => []
  | .builtin => [.builtin]

theorem perform_eq (embed : SimulatedDriver → δ) (call : Registration δ) (r : Registry δ) :
    call.perform embed r = r.register call.name (call.factory embed) := by
  cases call <;> rfl

end Registration

namespace Registry

section Entries

variable {β : Type}

theorem lookup_cons_eq_ite (n name : String) (value : β) (entries : List (String × β)) :
    ((name, value) :: entries).lookup n =
      if n = name then some value else entries.lookup n := by
  split_ifs with h
  · rw [h, List.lookup_cons_self]
  · rw [List.lookup_cons, beq_eq_false_iff_ne.2 h]

/-- The order of the entries plays no part here: of two entries with one name,
a new entry replaces or precedes the first one. -/
theorem lookup_insertEntry (n name : String) (value : β) (entries : List (String × β)) :
    (insertEntry name value entries).lookup n =
      if n = name then some value else entries.lookup n := by
  induction entries with
  | nil => exact lookup_cons_eq_ite n name value []
  | cons entry rest ih =>
      obtain ⟨other, previous⟩ := entry
      rw [insertEntry]
      by_cases hlt : name < other
      · rw [if_pos hlt, lookup_cons_eq_ite]
      rw [if_neg hlt]
      by_cases heq : name = other
      · -- the name is taken, and the previous entry is gone
        rw [if_pos heq, lookup_cons_eq_ite, lookup_cons_eq_ite, ← heq]
        split_ifs <;> rfl
      · rw [if_neg heq, lookup_cons_eq_ite, lookup_cons_eq_ite, ih]
        split_ifs with hother hname
        · exact absurd (hname.symm.trans hother) heq
        all_goals rfl

theorem lookup_isSome_iff (n : String) (entries : List (String × β)) :
    (entries.lookup n).isSome = true ↔ n ∈ entries.map (·.1) := by
  induction entries with
  | nil => simp
  | cons entry rest ih =>
      obtain ⟨other, value⟩ := entry
      rw [lookup_cons_eq_ite, List.map_cons, List.mem_cons, ← ih]
      split_ifs with h <;> simp [h]

end Entries

section Views

variable {δ : Type} (r : Registry δ) (n : String)

theorem contains_iff_listed : r.contains n = true ↔ n ∈ r.names :=
  lookup_isSome_iff n r.entries

theorem mem_names_iff : n ∈ r.names ↔ ∃ factory, r.factory? n = some factory := by
  rw [← contains_iff_listed, contains, Option.isSome_iff_exists]

theorem create_of_factory? {factory : Factory δ} (h : r.factory? n = some factory)
    (config : Config) : r.create n config = .ok (factory config) := by
  rw [create, h]

theorem create_of_not_contains (h : ¬ r.contains n = true) (config : Config) :
    r.create n config = .error (.notFound n) := by
  rw [contains, Bool.not_eq_true, Option.isSome_eq_false_iff, Option.isNone_iff_eq_none] at h
  rw [create, h]

theorem contains_iff_created (config : Config) :
    r.contains n = true ↔ ∃ driver, r.create n config = .ok driver := by
  constructor
  · intro h
    obtain ⟨factory, hfactory⟩ := Option.isSome_iff_exists.1 h
    exact ⟨factory config, r.create_of_factory? n hfactory config⟩
  · rintro ⟨driver, hdriver⟩
    by_contra h
    rw [r.create_of_not_contains n h] at hdriver
    cases hdriver

/-- The names are in the order of the entries, which is the order of their
bytes. -/
theorem names_ascending :
    r.names.Pairwise (fun a b => Utf8.bytes a < Utf8.bytes b) := by
  refine List.pairwise_map.2 (r.ordered.imp ?_)
  intro a b hlt
  exact Utf8.bytes_lt_of_lt hlt

end Views

section Calls

variable {δ : Type} (embed : SimulatedDriver → δ)

/-- A registry after some calls.  A caller that survives a clash goes on with
the registry that the call left. -/
def registerAll (calls : List (Registration δ)) (r : Registry δ) : Registry δ :=
  calls.foldl (fun r call => (call.perform embed r).1) r

/-- The factory that some calls leave under a name. -/
def latest? (n : String) (calls : List (Registration δ)) : Option (Factory δ) :=
  (calls.reverse.find? (fun call => call.name = n)).map (·.factory embed)

theorem factory?_perform (n : String) (call : Registration δ) (r : Registry δ) :
    (call.perform embed r).1.factory? n =
      if n = call.name then some (call.factory embed) else r.factory? n := by
  rw [call.perform_eq]
  exact lookup_insertEntry n call.name (call.factory embed) r.entries

/-- A call clashes when its name is taken, and reports that name. -/
theorem clash_iff (call : Registration δ) (r : Registry δ) (clash : Clash) :
    (call.perform embed r).2 = some clash ↔
      clash.name = call.name ∧ call.name ∈ r.names := by
  rw [call.perform_eq, ← contains_iff_listed, register]
  obtain ⟨name⟩ := clash
  split_ifs with h <;> simp [h, eq_comm]

theorem latest?_append_one (n : String) (calls : List (Registration δ))
    (call : Registration δ) :
    latest? embed n (calls ++ [call]) =
      if n = call.name then some (call.factory embed) else latest? embed n calls := by
  unfold latest?
  rw [List.reverse_append, List.reverse_singleton, List.singleton_append, List.find?_cons]
  by_cases h : n = call.name
  · simp [h]
  · simp [h, Ne.symm h]

/-- The registry is the map of the calls: the induction follows the calls from
the last one, which is the one that `latest?` looks at first. -/
theorem factory?_registerAll (n : String) (calls : List (Registration δ)) :
    (registerAll embed calls empty).factory? n = latest? embed n calls := by
  induction calls using List.reverseRecOn with
  | nil => rfl
  | append_singleton calls call ih =>
      rw [registerAll, List.foldl_append, List.foldl_cons, List.foldl_nil,
        factory?_perform, latest?_append_one]
      exact if_congr Iff.rfl rfl ih

theorem registerAll_origin (origin : Registration.Origin) (calls : List (Registration δ)) :
    registerAll embed calls (origin.registry embed) =
      registerAll embed (origin.calls ++ calls) empty := by
  cases origin <;> rfl

theorem latest?_of_split {calls past future : List (Registration δ)}
    {call : Registration δ} (hsplit : calls = past ++ call :: future)
    (hlast : ∀ later ∈ future, later.name ≠ call.name) :
    latest? embed call.name calls = some (call.factory embed) := by
  have hfuture : future.reverse.find? (fun later => later.name = call.name) = none := by
    simpa [List.find?_eq_none] using hlast
  simp [latest?, hsplit, hfuture]

theorem exists_latest?_iff (n : String) (calls : List (Registration δ)) :
    (∃ factory, latest? embed n calls = some factory) ↔ ∃ call ∈ calls, call.name = n := by
  rw [← Option.isSome_iff_exists, latest?, Option.isSome_map, List.find?_isSome]
  simp

/-- What a caller sees of a registry after some calls. -/
structure IsMapOf (calls : List (Registration δ)) (r : Registry δ) : Prop where
  /-- The next call clashes exactly when its name is taken. -/
  clash_iff : ∀ (next : Registration δ) (clash : Clash),
    (next.perform embed r).2 = some clash ↔ clash.name = next.name ∧ next.name ∈ r.names
  contains_iff_listed : ∀ n, r.contains n = true ↔ n ∈ r.names
  contains_iff_created : ∀ n config,
    r.contains n = true ↔ ∃ driver, r.create n config = .ok driver
  not_found : ∀ n config, ¬ r.contains n = true →
    r.create n config = .error (.notFound n)
  ascending : r.names.Pairwise (fun a b => Utf8.bytes a < Utf8.bytes b)
  listed_iff : ∀ n, n ∈ r.names ↔ ∃ call ∈ calls, call.name = n
  /-- The factory of the last call for a name gets the configuration as it is. -/
  latest : ∀ (past : List (Registration δ)) (call : Registration δ)
    (future : List (Registration δ)), calls = past ++ call :: future →
    (∀ later ∈ future, later.name ≠ call.name) →
    ∀ config, r.create call.name config = .ok (call.factory embed config)

/-- A registry is an ordered map after every list of calls, also where some of
them clashed. -/
theorem ordered_map (origin : Registration.Origin) (calls : List (Registration δ)) :
    IsMapOf embed (origin.calls ++ calls) (registerAll embed calls (origin.registry embed)) := by
  rw [registerAll_origin]
  generalize origin.calls ++ calls = history
  have hfactory : ∀ n, (registerAll embed history empty).factory? n = latest? embed n history :=
    fun n => factory?_registerAll embed n history
  generalize registerAll embed history empty = r at hfactory
  exact {
    clash_iff := fun next clash => Registry.clash_iff embed next r clash
    contains_iff_listed := r.contains_iff_listed
    contains_iff_created := r.contains_iff_created
    not_found := fun n config hn => r.create_of_not_contains n hn config
    ascending := r.names_ascending
    listed_iff := fun n => by
      rw [mem_names_iff, hfactory, exists_latest?_iff]
    latest := fun past call future hsplit hlast config =>
      r.create_of_factory? call.name
        ((hfactory call.name).trans (latest?_of_split embed hsplit hlast)) config }

end Calls

end Registry
end MotorSupervisor
