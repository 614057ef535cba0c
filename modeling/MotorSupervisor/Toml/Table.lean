import MotorSupervisor.Toml.Value

/-!
# Tables under construction

While a document is read its tables remember how they came to be, because
that decides what may still be added to them:

* a table that a header names is defined, and may not be named again;
* a table that only lies on the way to a named one may still be named later;
* a table made by a dotted key may be extended by dotted keys only, from
  within the same table.

A scalar, an array or a table written as a value is closed at once.
`Table.assign` adds a key with its value, `Table.define` and
`Table.defineRow` follow a header, and `Table.entries` forgets the history.
-/

namespace MotorSupervisor
namespace Toml

/-- How a table came to be. -/
inductive Origin
  /-- Named by a header; also the document itself and a table in braces. -/
  | header
  /-- On the way to a table that a header names. -/
  | implied
  /-- On the way to a dotted key. -/
  | dotted
deriving DecidableEq

/-- An entry of a table under construction. -/
inductive Node
  | closed (value : Value)
  | table (origin : Origin) (nodes : List (String × Node))
  | rows (tables : List (List (String × Node)))

/-- A table under construction. -/
structure Table where
  origin : Origin
  nodes : List (String × Node)

namespace Table

/-- A table without entries. -/
def empty (origin : Origin) : Table :=
  ⟨origin, []⟩

/-- The table with the entry of a key replaced, or added at the end. -/
def put (t : Table) (key : String) (node : Node) : Table :=
  let rec go : List (String × Node) → List (String × Node)
    | [] => [(key, node)]
    | (k, n) :: rest => if k = key then (k, node) :: rest else (k, n) :: go rest
  { t with nodes := go t.nodes }

/-- Change the table at a path.  Missing tables on the way are added with the
origin `made`; the last row of an array of tables stands for the array.  A
dotted key does not reach into a table that a header has defined. -/
def modify (made : Origin) (change : Table → Option Table) :
    List String → Table → Option Table
  | [], t => change t
  | key :: path, t =>
      match t.nodes.lookup key with
      | none => do
          let inner ← modify made change path (empty made)
          some (t.put key (.table inner.origin inner.nodes))
      | some (.closed _) => none
      | some (.table origin nodes) =>
          if made = .dotted ∧ origin = .header then none
          else do
            let inner ← modify made change path ⟨origin, nodes⟩
            some (t.put key (.table inner.origin inner.nodes))
      | some (.rows earlier) =>
          match earlier.getLast? with
          | none => none
          | some last => do
              let inner ← modify made change path ⟨.header, last⟩
              some (t.put key (.rows (earlier.dropLast ++ [inner.nodes])))

/-- Add a value under a new key of the table itself. -/
def add (key : String) (value : Value) (t : Table) : Option Table :=
  match t.nodes.lookup key with
  | none => some (t.put key (.closed value))
  | some _ => none

/-- Add a value under a path of keys.  The tables on the way are made by dotted
keys, and the table that gets the value has to be such a table. -/
def assign (path : List String) (value : Value) (t : Table) : Option Table :=
  match path.getLast? with
  | none => none
  | some key =>
      let way := path.dropLast
      let addHere (target : Table) : Option Table :=
        if (target.origin = .dotted) ↔ way = [] then none
        else add key value target
      modify .dotted addHere way t

/-- Define the table that a header names. -/
def define (path : List String) (t : Table) : Option Table :=
  match path.getLast? with
  | none => none
  | some key =>
      let defineHere (target : Table) : Option Table :=
        match target.nodes.lookup key with
        | none => some (target.put key (.table .header []))
        | some (.table .implied nodes) => some (target.put key (.table .header nodes))
        | some _ => none
      modify .implied defineHere path.dropLast t

/-- Add a row to the array of tables that a header names. -/
def defineRow (path : List String) (t : Table) : Option Table :=
  match path.getLast? with
  | none => none
  | some key =>
      let addRow (target : Table) : Option Table :=
        match target.nodes.lookup key with
        | none => some (target.put key (.rows [[]]))
        | some (.rows earlier) => some (target.put key (.rows (earlier ++ [[]])))
        | some _ => none
      modify .implied addRow path.dropLast t

end Table

mutual

/-- The value of an entry. -/
def Node.value : Node → Value
  | .closed value => value
  | .table _ nodes => .table (Node.entries nodes)
  | .rows tables => .array (Node.tables tables)

/-- The values of the entries of a table. -/
def Node.entries : List (String × Node) → Entries
  | [] => []
  | (key, node) :: rest => (key, node.value) :: Node.entries rest

/-- The values of the rows of an array of tables. -/
def Node.tables : List (List (String × Node)) → List Value
  | [] => []
  | row :: rest => .table (Node.entries row) :: Node.tables rest

end

/-- The finished entries of a table. -/
def Table.entries (t : Table) : Entries :=
  Node.entries t.nodes

/-- The entries of a table in braces, given its keys and values in order. -/
def entriesOf? (pairs : List (List String × Value)) : Option Entries :=
  (pairs.foldlM (fun (t : Table) pair => t.assign pair.1 pair.2)
    (Table.empty .header)).map Table.entries

end Toml
end MotorSupervisor
