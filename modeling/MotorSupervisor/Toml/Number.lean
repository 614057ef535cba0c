import MotorSupervisor.Decimal.Literal
import MotorSupervisor.Toml.Value

/-!
# Numbers of a document

Integers in four bases and floats, as whole scalars.  A scalar is first
recognised by its spelling, and only then evaluated.  A spelling that passes
for a number without having a value gives `Value.unreadable`: an integer beyond
128 bits, a float beyond the 64-bit format, a base without digits, or letters
after an underscore of a decimal integer.  Such a value is an error for whoever
reads it, and for nobody else.

Underscores may group digits.  A decimal integer, also the whole part of a
float, has no leading zero.
-/

namespace MotorSupervisor
namespace Toml

/-- Every underscore stands between two digits.  The flag says whether a digit
comes before the characters. -/
def separated (digit : Char → Bool) : Bool → List Char → Bool
  | _, [] => true
  | before, '_' :: rest => before && rest.head?.any digit && separated digit false rest
  | _, c :: rest => separated digit (digit c) rest

/-- The characters of a number without its underscores. -/
def ungrouped (cs : List Char) : List Char :=
  cs.filter (· != '_')

/-- The integers that a document can hold. -/
def inRange (i : Int) : Bool :=
  decide (-((1 <<< 127 : Nat) : Int) ≤ i ∧ i < ((1 <<< 128 : Nat) : Int))

/-- The value of an integer with the given digits. -/
def integerValue (base : Nat) (negative : Bool) (digits : List Char) : Value :=
  let magnitude? := if digits.isEmpty then none else ofDigits? base digits
  let signed? := magnitude?.map fun n => if negative then -(n : Int) else (n : Int)
  match signed?.filter inRange with
  | some i => .integer i
  | none => .unreadable

/-- An integer after the mark of its base. -/
def basedInteger? (base : Nat) (cs : List Char) : Option Value :=
  let digits := ungrouped cs
  if separated (isDigit base) false cs && digits.all (isDigit base) then
    some (integerValue base false digits)
  else none

/-- The body of an unsigned decimal integer: digits, and from the first
underscore on anything that is grouped like hexadecimal digits and has no space
and no mark of a float. -/
def isDecimal (body : List Char) : Bool :=
  match body.dropWhile (isDigit 10) with
  | [] => body == ['0'] || (body != [] && body.head? != some '0')
  | '_' :: rest =>
      body.head? != some '0' && separated (isDigit 16) false body &&
        rest.all (fun c => c != '.' && c != 'e' && c != 'E' && c != ' ')
  | _ => false

/-- An integer scalar. -/
def integer? (cs : List Char) : Option Value :=
  match cs with
  | '0' :: 'x' :: rest => basedInteger? 16 rest
  | '0' :: 'o' :: rest => basedInteger? 8 rest
  | '0' :: 'b' :: rest => basedInteger? 2 rest
  | _ =>
      let (negative, body) := splitSign cs
      if isDecimal body then
        some (integerValue 10 negative (ungrouped body))
      else none

/-- A digit or an underscore. -/
def isGrouped (c : Char) : Bool :=
  isDigit 10 c || c == '_'

/-- The leading digits and underscores, of which at least one is a digit:
without the underscores, and what follows them. -/
def groupedDigits? (cs : List Char) : Option (List Char × List Char) :=
  let digits := ungrouped (cs.takeWhile isGrouped)
  if digits.isEmpty then none else some (digits, cs.dropWhile isGrouped)

/-- The exponent of a float after its mark. -/
def exponent? (cs : List Char) : Option Int := do
  let (negative, body) := splitSign cs
  let (digits, rest) ← groupedDigits? body
  let n ← ofDigits? 10 digits
  if rest.isEmpty then some (if negative then -(n : Int) else n) else none

/-- The numeral of an unsigned float, which has a fraction, an exponent or
both. -/
def floatNumeral? (cs : List Char) : Option Decimal := do
  let (whole, rest) ← groupedDigits? cs
  if cs.head? = some '0' ∧ whole ≠ ['0'] then none
  else
    match rest with
    | '.' :: rest =>
        let (fraction, rest) ← groupedDigits? rest
        match rest with
        | [] => Decimal.ofParts? whole fraction 0
        | mark :: rest =>
            if mark = 'e' ∨ mark = 'E' then
              (exponent? rest).bind (Decimal.ofParts? whole fraction)
            else none
    | mark :: rest =>
        if mark = 'e' ∨ mark = 'E' then
          (exponent? rest).bind (Decimal.ofParts? whole [])
        else none
    | [] => none

/-- A float scalar. -/
def float? (cs : List Char) : Option Value :=
  let (negative, body) := splitSign cs
  match body with
  | ['i', 'n', 'f'] => some (.float (.infinity negative))
  | ['n', 'a', 'n'] => some (.float .nan)
  | _ =>
      if separated (isDigit 10) false body then
        (floatNumeral? body).map fun d =>
          let value : Double := Binary.ofDecimal negative d
          if value.isFinite then .float value else .unreadable
      else none

end Toml
end MotorSupervisor
