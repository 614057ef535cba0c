import MotorSupervisor.Binary.Basic

/-!
# Decimal numerals

A decimal numeral is a whole number of digits scaled by a power of ten.  It
is the meeting point of texts and binary numbers: `Decimal.positional` writes
a numeral without an exponent, `Binary.ofDecimal` reads one into a binary
format with a single rounding.
-/

namespace MotorSupervisor

/-- The number `digits * 10 ^ exponent`. -/
structure Decimal where
  digits : Nat
  exponent : Int
deriving DecidableEq

namespace Decimal

/-- The power of ten as a rational number. -/
def power (exponent : Int) : Rat :=
  (10 : Rat) ^ exponent

/-- Value of a numeral. -/
def toRat (d : Decimal) : Rat :=
  (d.digits : Rat) * power d.exponent

/-- `count` zeros. -/
def zeros (count : Nat) : String :=
  String.ofList (List.replicate count '0')

/-- The numeral in positional notation, with as many decimal places as its
exponent says. -/
def positional (d : Decimal) : String :=
  let written := toString d.digits
  match d.exponent with
  | .ofNat e => if d.digits = 0 then written else written ++ zeros e
  | .negSucc e =>
      let padded := zeros (e + 2 - written.length) ++ written
      let cs := padded.toList
      let whole := cs.length - (e + 1)
      String.ofList (cs.take whole) ++ "." ++ String.ofList (cs.drop whole)

/-- Number of decimal digits before the point if the numeral were written
with an exponent of zero; an upper bound of its order of magnitude. -/
def order (d : Decimal) : Int :=
  (toString d.digits).length + d.exponent

end Decimal

namespace Binary

variable {F : Format}

/-- The number of the format nearest to a signed numeral.  Numerals far beyond
either end of the format are decided by their order of magnitude alone, so
that an absurd exponent costs nothing. -/
def ofDecimal (negative : Bool) (d : Decimal) : Binary F :=
  if d.digits = 0 ∨ d.order < F.leastExponent then round negative 0
  else if ((1 <<< F.exponentBits : Nat) : Int) < d.order then infinity negative
  else round negative (if negative then -d.toRat else d.toRat)

/-- A decimal literal denotes the nearest number of the format. -/
instance : OfScientific (Binary F) where
  ofScientific digits smaller exponent :=
    ofDecimal false ⟨digits, if smaller then -(exponent : Int) else exponent⟩

end Binary
end MotorSupervisor
