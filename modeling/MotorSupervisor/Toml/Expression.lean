import MotorSupervisor.Toml.Quoted
import MotorSupervisor.Toml.Number
import MotorSupervisor.Toml.DateTime
import MotorSupervisor.Toml.Table

/-!
# Expressions of a document

A document is a sequence of lines, each holding at most one expression: the
header of a table, the header of a row of an array of tables, or a key with
its value.  Arrays and tables in braces may run over several lines, hold
comments anywhere between their parts and end with a comma.

Readers take the text at the start of a construct and return the construct
with the text after it.  Nested constructs are read with explicit fuel; the
length of the text is always enough.
-/

namespace MotorSupervisor
namespace Toml

/-- One line of a document that has a meaning. -/
inductive Expression
  | header (path : List String)
  | rowHeader (path : List String)
  | assignment (path : List String) (value : Value)

/-- Arrays and tables in braces nest at most this deep, and a path has at most
this many keys. -/
def maxDepth : Nat :=
  80

/-- One key of a path. -/
def simpleKey? (cs : List Char) : Option (String × List Char) :=
  match quotedLine? cs with
  | some result => some result
  | none =>
      match cs.takeWhile isBareKey with
      | [] => none
      | key => some (String.ofList key, cs.dropWhile isBareKey)

/-- A dotted path of keys; blanks may surround the dots. -/
def keyPath? : Nat → List Char → Option (List String × List Char)
  | 0, _ => none
  | fuel + 1, cs => do
      let (key, rest) ← simpleKey? cs
      match skipBlanks rest with
      | '.' :: more =>
          let (path, rest) ← keyPath? fuel (skipBlanks more)
          some (key :: path, rest)
      | rest => some ([key], rest)

/-- A path of keys that is short enough. -/
def path? (cs : List Char) : Option (List String × List Char) :=
  (keyPath? (cs.length + 1) cs).filter (·.1.length ≤ maxDepth)

/-- An unquoted scalar ends before these characters if they follow blanks. -/
def endsWords : List Char → Bool
  | [] => true
  | c :: _ => endsScalar c || c == '"' || c == '\x27'

/-- The characters of an unquoted scalar, and what follows them.  Blanks
between its words belong to the scalar, as in a date with a time. -/
def spanScalar : List Char → List Char × List Char
  | [] => ([], [])
  | c :: rest =>
      if endsScalar c || (isBlank c && endsWords (skipBlanks rest)) then ([], c :: rest)
      else
        let (run, after) := spanScalar rest
        (c :: run, after)

/-- The value of an unquoted scalar. -/
def scalar? (cs : List Char) : Option Value :=
  if cs = ['t', 'r', 'u', 'e'] then some (.boolean true)
  else if cs = ['f', 'a', 'l', 's', 'e'] then some (.boolean false)
  else if isDateTime cs then some (.dateTime (String.ofList cs))
  else integer? cs <|> float? cs

mutual

/-- A value of any kind. -/
def value? : Nat → Nat → List Char → Option (Value × List Char)
  | 0, _, _ => none
  | fuel + 1, depth, cs =>
      match cs with
      | '[' :: rest =>
          if depth = 0 then none
          else do
            let (items, rest) ← items? fuel (depth - 1) rest
            some (.array items, rest)
      | '{' :: rest =>
          if depth = 0 then none
          else do
            let (pairs, rest) ← pairs? fuel (depth - 1) rest
            let entries ← entriesOf? pairs
            some (.table entries, rest)
      | _ =>
          match quoted? cs with
          | some (text, rest) => some (.string text, rest)
          | none => do
              let (run, rest) := spanScalar cs
              let value ← scalar? run
              some (value, rest)

/-- The items of an array and its closing bracket. -/
def items? : Nat → Nat → List Char → Option (List Value × List Char)
  | 0, _, _ => none
  | fuel + 1, depth, cs => do
      match ← skipVoid false cs with
      | ']' :: rest => some ([], rest)
      | cs =>
          let (value, rest) ← value? fuel depth cs
          match ← skipVoid false rest with
          | ',' :: rest =>
              let (values, rest) ← items? fuel depth rest
              some (value :: values, rest)
          | ']' :: rest => some ([value], rest)
          | _ => none

/-- The entries of a table in braces and its closing brace. -/
def pairs? : Nat → Nat → List Char → Option (List (List String × Value) × List Char)
  | 0, _, _ => none
  | fuel + 1, depth, cs => do
      match ← skipVoid false cs with
      | '}' :: rest => some ([], rest)
      | cs =>
          let (path, rest) ← path? cs
          let rest ← (skipVoid false rest).bind (after? '=')
          let (value, rest) ← (skipVoid false rest).bind (value? fuel depth)
          match ← skipVoid false rest with
          | ',' :: rest =>
              let (pairs, rest) ← pairs? fuel depth rest
              some ((path, value) :: pairs, rest)
          | '}' :: rest => some ([(path, value)], rest)
          | _ => none

end

/-- The expression at the start of a line. -/
def expression? (cs : List Char) : Option (Expression × List Char) :=
  match cs with
  | '[' :: '[' :: rest => do
      let (path, rest) ← path? (skipBlanks rest)
      let rest ← (after? ']' (skipBlanks rest)).bind (after? ']')
      some (.rowHeader path, rest)
  | '[' :: rest => do
      let (path, rest) ← path? (skipBlanks rest)
      let rest ← after? ']' (skipBlanks rest)
      some (.header path, rest)
  | _ => do
      let (path, rest) ← path? cs
      let rest ← after? '=' (skipBlanks rest)
      let (value, rest) ← value? (2 * cs.length + 2) maxDepth (skipBlanks rest)
      some (.assignment path value, rest)

/-- The expressions of all lines of a text. -/
def expressions? : Nat → List Char → Option (List Expression)
  | 0, _ => none
  | fuel + 1, cs =>
      match skipBlanks cs with
      | [] => some []
      | c :: rest =>
          if c = '#' ∨ c = '\n' ∨ c = '\r' then
            (endLine (c :: rest)).bind (expressions? fuel)
          else do
            let (expression, rest) ← expression? (c :: rest)
            let rest ← endLine rest
            let more ← expressions? fuel rest
            some (expression :: more)

end Toml
end MotorSupervisor
