import MotorSupervisor.Binary.Basic

/-!
# Document values

The value of a configuration document is a tree of scalars, arrays and
tables.  A table keeps its entries in the order of the document; look-up is by
key.
-/

namespace MotorSupervisor
namespace Toml

/-- A value of a document. -/
inductive Value
  | string (text : String)
  | integer (value : Int)
  | float (value : Double)
  | boolean (value : Bool)
  | dateTime (text : String)
  /-- Spelled like a number, but not one that a document can hold. -/
  | unreadable
  | array (items : List Value)
  | table (entries : List (String × Value))

/-- The entries of a table. -/
abbrev Entries := List (String × Value)

mutual

/-- Every scalar in a value has a value itself. -/
def Value.isReadable : Value → Bool
  | .unreadable => false
  | .array items => areReadable items
  | .table entries => entriesReadable entries
  | _ => true

/-- Every scalar in each of the values has a value itself. -/
def areReadable : List Value → Bool
  | [] => true
  | value :: rest => value.isReadable && areReadable rest

/-- Every scalar under each of the keys has a value itself. -/
def entriesReadable : List (String × Value) → Bool
  | [] => true
  | (_, value) :: rest => value.isReadable && entriesReadable rest

end

/-- Why a text is not a document. -/
inductive Fault
  /-- The bytes are not valid UTF-8. -/
  | encoding
  /-- The text does not follow the grammar. -/
  | syntactic
  /-- A key or table is defined twice, or in two incompatible ways. -/
  | conflict
deriving DecidableEq

namespace Fault

/-- Explanation of a fault. -/
def message : Fault → String
  | encoding => "invalid UTF-8"
  | syntactic => "invalid syntax"
  | conflict => "conflicting definitions"

end Fault
end Toml
end MotorSupervisor
