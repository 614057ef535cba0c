import MotorSupervisor.Decimal.Basic

/-!
# Decimal text with a fixed number of places

The exact value of a number is rounded to the given number of decimal places;
a value halfway between two numerals goes to the even one.  The sign is kept
even when all digits round to zero.
-/

namespace MotorSupervisor

/-- The integer nearest to a non-negative rational, the even one of two
equally near. -/
def roundHalfEven (q : Rat) : Nat :=
  let below := q.floor.toNat
  let rest := q - (below : Rat)
  if rest < 1 / 2 then below
  else if 1 / 2 < rest then below + 1
  else below + below % 2

namespace Binary

variable {F : Format}

/-- The text of a number with `places` digits after the point. -/
def fixed (places : Nat) : Binary F → String
  | nan => "NaN"
  | infinity negative => if negative then "-inf" else "inf"
  | finite negative rank =>
      let digits := roundHalfEven (F.magnitude rank * Decimal.power places)
      let written := (Decimal.mk digits (-(places : Int))).positional
      if negative then "-" ++ written else written

end Binary
end MotorSupervisor
