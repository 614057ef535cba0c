import MotorSupervisor.Decimal.Basic

/-!
# The shortest decimal text of a binary number

A finite number is written with the fewest digits that read back as the same
number.  The decimal grids `10 ^ j` are tried from coarse to fine; the first
grid with a point that reads back decides.  On that grid only the two
neighbours of the number can read back.  If both do, the nearer one is taken,
and the upper one if they are equally near.
-/

namespace MotorSupervisor
namespace Binary

variable {F : Format}

/-- The preferred point of the grid `10 ^ exponent` that reads back as the
number `q` of the given rank. -/
def gridPoint? (F : Format) (rank : Nat) (q : Rat) (exponent : Int) : Option Decimal :=
  let below := (q / Decimal.power exponent).floor.toNat
  let lower : Decimal := ⟨below, exponent⟩
  let upper : Decimal := ⟨below + 1, exponent⟩
  let readsBack (d : Decimal) : Bool := F.nearestRank d.toRat == rank
  if readsBack lower then
    if readsBack upper && decide (upper.toRat - q ≤ q - lower.toRat) then some upper
    else some lower
  else if readsBack upper then some upper
  else none

/-- The first of `steps` ever finer grids with a point that reads back. -/
def shortestFrom (F : Format) (rank : Nat) (q : Rat) : Nat → Int → Decimal
  | 0, exponent => ⟨(q / Decimal.power exponent).floor.toNat, exponent⟩
  | steps + 1, exponent =>
      match gridPoint? F rank q exponent with
      | some d => d
      | none => shortestFrom F rank q steps (exponent - 1)

/-- The numeral with the fewest digits that reads back as the given rank.  The
number itself lies on the grid `10 ^ leastExponent`, so the search ends. -/
def shortest (F : Format) (rank : Nat) : Decimal :=
  let q := F.magnitude rank
  let coarsest := (toString q.floor.toNat).length
  shortestFrom F rank q (coarsest + F.leastExponent.natAbs) coarsest

/-- The shortest text of a number, always in positional notation. -/
def text : Binary F → String
  | nan => "NaN"
  | infinity negative => if negative then "-inf" else "inf"
  | finite negative rank =>
      let written := if rank.val = 0 then "0" else (shortest F rank.val).positional
      if negative then "-" ++ written else written

instance : ToString (Binary F) := ⟨text⟩

end Binary
end MotorSupervisor
