import MotorSupervisor.Decimal.Basic

/-!
# Numerals in text

Digits in a base up to sixteen, and the free-standing spelling of a decimal
number: an optional sign, digits with at most one point, and an optional
exponent.  At least one digit is needed before the exponent, on either side
of the point.  The words `inf`, `infinity` and `nan` are accepted in any case.
-/

namespace MotorSupervisor

/-- The value of a digit in the given base. -/
def digit? (base : Nat) (c : Char) : Option Nat :=
  let value? : Option Nat :=
    if '0' ≤ c ∧ c ≤ '9' then some (c.toNat - '0'.toNat)
    else if 'a' ≤ c ∧ c ≤ 'f' then some (c.toNat - 'a'.toNat + 10)
    else if 'A' ≤ c ∧ c ≤ 'F' then some (c.toNat - 'A'.toNat + 10)
    else none
  value?.filter (· < base)

/-- A digit of the given base. -/
def isDigit (base : Nat) (c : Char) : Bool :=
  (digit? base c).isSome

/-- The number written by a list of digits; nothing else may occur in it. -/
def ofDigits? (base : Nat) (cs : List Char) : Option Nat :=
  cs.foldlM (fun n c => (digit? base c).map (n * base + ·)) 0

/-- The leading decimal digits and what follows them. -/
def spanDigits (cs : List Char) : List Char × List Char :=
  (cs.takeWhile (isDigit 10), cs.dropWhile (isDigit 10))

/-- A sign, `true` for minus, and what follows it. -/
def splitSign : List Char → Bool × List Char
  | '-' :: rest => (true, rest)
  | '+' :: rest => (false, rest)
  | cs => (false, cs)

/-- A whole number with an optional sign. -/
def ofSignedDigits? (cs : List Char) : Option Int := do
  let (negative, digits) := splitSign cs
  if digits.isEmpty then none
  else
    let n ← ofDigits? 10 digits
    some (if negative then -(n : Int) else n)

namespace Decimal

/-- The numeral with the given digits before and after the point, scaled by a
power of ten. -/
def ofParts? (whole fraction : List Char) (exponent : Int) : Option Decimal := do
  let digits ← ofDigits? 10 (whole ++ fraction)
  some ⟨digits, exponent - fraction.length⟩

/-- An unsigned numeral with optional point and exponent. -/
def ofText? (cs : List Char) : Option Decimal :=
  let (whole, afterWhole) := spanDigits cs
  let (fraction, afterFraction) :=
    match afterWhole with
    | '.' :: rest => spanDigits rest
    | rest => ([], rest)
  if whole.isEmpty && fraction.isEmpty then none
  else
    match afterFraction with
    | [] => ofParts? whole fraction 0
    | mark :: rest =>
        if mark = 'e' ∨ mark = 'E' then
          (ofSignedDigits? rest).bind (ofParts? whole fraction)
        else none

end Decimal

namespace Binary

/-- The number of the format nearest to the numeral written by a text. -/
def ofText? (F : Format) (s : String) : Option (Binary F) :=
  let (negative, body) := splitSign s.toList
  let word := String.ofList (body.map Char.toLower)
  if word = "inf" ∨ word = "infinity" then some (infinity negative)
  else if word = "nan" then some nan
  else (Decimal.ofText? body).map (ofDecimal negative)

end Binary
end MotorSupervisor
