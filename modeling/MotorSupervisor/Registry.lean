import MotorSupervisor.Driver.Simulated
import MotorSupervisor.Config.Basic

/-!
# Registry of drivers

A registry holds driver factories under names, in increasing order of the
names.  A name that is registered again gets the new factory, and the clash is
reported.

**Definitions.**
* `Registry.register`: add a factory; the second component reports a clash.
* `Registry.names`, `Registry.contains`, `Registry.create`: the view of a
  registry as an ordered map.
* `Registry.builtin`: the drivers that every service has.
-/

namespace MotorSupervisor

/-- A factory builds a driver from a configuration. -/
abbrev Factory (δ : Type) := Config → δ

/-- A name was registered while it was taken. -/
structure Clash where
  name : String
deriving DecidableEq

/-- Explanation of a clash. -/
def Clash.message (c : Clash) : String :=
  s!"Driver '{c.name}' registered twice"

namespace Registry

/-- Names in strictly increasing order. -/
def Ordered {β : Type} (entries : List (String × β)) : Prop :=
  entries.Pairwise (fun a b => a.1 < b.1)

/-- Put an entry at the place of its name, instead of one of the same name. -/
def insertEntry {β : Type} (name : String) (value : β) :
    List (String × β) → List (String × β)
  | [] => [(name, value)]
  | entry :: rest =>
      if name < entry.1 then (name, value) :: entry :: rest
      else if name = entry.1 then (name, value) :: rest
      else entry :: insertEntry name value rest

theorem mem_insertEntry {β : Type} {name : String} {value : β}
    {entries : List (String × β)} {e : String × β}
    (h : e ∈ insertEntry name value entries) :
    e = (name, value) ∨ e ∈ entries := by
  induction entries with
  | nil => simpa [insertEntry] using h
  | cons entry rest ih =>
      unfold insertEntry at h
      split at h
      · simpa using h
      · split at h
        · rcases List.mem_cons.1 h with h | h
          · exact .inl h
          · exact .inr (List.mem_cons_of_mem _ h)
        · rcases List.mem_cons.1 h with h | h
          · exact .inr (h ▸ List.mem_cons_self)
          · exact (ih h).imp id (List.mem_cons_of_mem _)

theorem Ordered.insertEntry {β : Type} {name : String} {value : β}
    {entries : List (String × β)} (h : Ordered entries) :
    Ordered (Registry.insertEntry name value entries) := by
  induction entries with
  | nil => simp [Registry.insertEntry, Ordered]
  | cons entry rest ih =>
      have hrest : ∀ e ∈ rest, entry.1 < e.1 := (List.pairwise_cons.1 h).1
      have htail : Ordered rest := (List.pairwise_cons.1 h).2
      unfold Registry.insertEntry
      split
      · rename_i hlt
        refine List.pairwise_cons.2 ⟨fun e he => ?_, h⟩
        rcases List.mem_cons.1 he with rfl | he
        · exact hlt
        · exact String.lt_trans hlt (hrest e he)
      · split
        · rename_i heq
          exact List.pairwise_cons.2 ⟨fun e he => heq ▸ hrest e he, htail⟩
        · rename_i hlt hne
          refine List.pairwise_cons.2 ⟨fun e he => ?_, ih htail⟩
          rcases mem_insertEntry he with rfl | he
          · exact Std.lt_of_le_of_ne (String.not_lt.1 hlt) (Ne.symm hne)
          · exact hrest e he

end Registry

/-- Driver factories by name. -/
structure Registry (δ : Type) where
  entries : List (String × Factory δ)
  ordered : Registry.Ordered entries

namespace Registry

variable {δ : Type}

/-- A registry without drivers. -/
def empty : Registry δ :=
  ⟨[], List.Pairwise.nil⟩

/-- The registered names in increasing order. -/
def names (r : Registry δ) : List String :=
  r.entries.map (·.1)

/-- The factory of a name. -/
def factory? (r : Registry δ) (name : String) : Option (Factory δ) :=
  r.entries.lookup name

/-- A driver of this name can be built. -/
def contains (r : Registry δ) (name : String) : Bool :=
  (r.factory? name).isSome

/-- Add a factory.  If the name is taken the new factory replaces the old one
and the clash is reported. -/
def register (name : String) (factory : Factory δ) (r : Registry δ) :
    Registry δ × Option Clash :=
  (⟨insertEntry name factory r.entries, r.ordered.insertEntry⟩,
    if r.contains name then some ⟨name⟩ else none)

/-- Build the driver of a name from a configuration. -/
def create (r : Registry δ) (name : String) (config : Config) : Except DriverError δ :=
  match r.factory? name with
  | some factory => .ok (factory config)
  | none => .error (.notFound name)

/-- Factory of the simulated motor, as one of the drivers of a registry. -/
def simulatedFactory (embed : SimulatedDriver → δ) : Factory δ :=
  fun config => embed (.ofConfig config.simulation)

/-- Add every driver that a service has. -/
def registerBuiltin (embed : SimulatedDriver → δ) (r : Registry δ) :
    Registry δ × Option Clash :=
  r.register DriverConfig.simulation (simulatedFactory embed)

/-- The drivers that every service has. -/
def builtin (embed : SimulatedDriver → δ) : Registry δ :=
  (registerBuiltin embed empty).1

end Registry
end MotorSupervisor
