import MotorSupervisor.Toml.Expression

/-!
# Documents

A document is the table that its expressions build, starting from an empty
one.  A key belongs to the table of the last header before it.
-/

namespace MotorSupervisor
namespace Toml

/-- A document that is being built: its table and the path of the last
header. -/
structure Draft where
  root : Table
  current : List String

namespace Draft

/-- The document without any expression. -/
def empty : Draft :=
  ⟨Table.empty .header, []⟩

/-- Take up one expression. -/
def extend (d : Draft) : Expression → Option Draft
  | .header path => (d.root.define path).map (⟨·, path⟩)
  | .rowHeader path => (d.root.defineRow path).map (⟨·, path⟩)
  | .assignment path value =>
      (d.root.modify .implied (Table.assign path value) d.current).map (⟨·, d.current⟩)

end Draft

/-- The entries that a sequence of expressions defines. -/
def entriesOfExpressions (expressions : List Expression) : Except Fault Entries :=
  match expressions.foldlM Draft.extend Draft.empty with
  | some draft => .ok draft.root.entries
  | none => .error .conflict

/-- A leading byte order mark has no meaning. -/
def dropMark : List Char → List Char
  | '\ufeff' :: rest => rest
  | cs => cs

/-- The entries of the document written by a text. -/
def ofText (text : String) : Except Fault Entries :=
  let cs := dropMark text.toList
  match expressions? (cs.length + 1) cs with
  | some expressions => entriesOfExpressions expressions
  | none => .error .syntactic

/-- The entries of the document in the bytes of a file. -/
def ofBytes (bytes : ByteArray) : Except Fault Entries :=
  match String.fromUTF8? bytes with
  | some text => ofText text
  | none => .error .encoding

end Toml
end MotorSupervisor
