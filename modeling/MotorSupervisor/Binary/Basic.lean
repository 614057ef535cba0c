import MotorSupervisor.Binary.Format

/-!
# Binary floating-point numbers

A number of a binary format is a sign with the rank of a magnitude, an
infinity, or the single not-a-number.  Zero has two signs.

**Definitions.**
* `Binary.toRat`: the rational value of a finite number.
* `Binary.round`: the nearest number of the format to a rational; the sign of
  a zero result is the sign of the rational, or a given one when the rational
  itself is zero.
* `Binary.lt`, `Binary.le`: the order of values, false whenever one side is
  not a number.

Every arithmetic operation of the library is an exact rational operation
followed by one `Binary.round`.
-/

namespace MotorSupervisor

/-- A number of the format `F`. -/
inductive Binary (F : Format)
  | nan
  | infinity (negative : Bool)
  | finite (negative : Bool) (rank : Fin F.infinityRank)
deriving DecidableEq

/-- Numbers of the 32-bit format. -/
abbrev Single := Binary Format.single

/-- Numbers of the 64-bit format. -/
abbrev Double := Binary Format.double

namespace Binary

variable {F : Format}

/-- Neither an infinity nor the not-a-number. -/
def isFinite : Binary F → Bool
  | finite _ _ => true
  | _ => false

/-- The not-a-number. -/
def isNaN : Binary F → Bool
  | nan => true
  | _ => false

/-- Value of a finite number; `0` for all others. -/
def toRat : Binary F → Rat
  | finite negative rank =>
      if negative then -F.magnitude rank else F.magnitude rank
  | _ => 0

/-- The nearest number to `q`, an infinity when `q` is beyond the format.
`zeroSign` is the sign of the result when `q = 0`. -/
def round (zeroSign : Bool) (q : Rat) : Binary F :=
  let negative := if q = 0 then zeroSign else decide (q < 0)
  let rank := F.nearestRank q.abs
  if h : rank < F.infinityRank then finite negative ⟨rank, h⟩
  else infinity negative

/-- The nearest number to a rational; zero is positive. -/
def ofRat (q : Rat) : Binary F :=
  round false q

/-- The nearest number to a natural number. -/
def ofNat (n : Nat) : Binary F :=
  ofRat (n : Rat)

/-- The nearest number to an integer; zero is positive. -/
def ofInt (i : Int) : Binary F :=
  ofRat (i : Rat)

/-- The same value in another format, rounded once. -/
def toFormat (G : Format) : Binary F → Binary G
  | nan => nan
  | infinity negative => infinity negative
  | x@(finite negative _) => round negative x.toRat

instance (n : Nat) : OfNat (Binary F) n := ⟨ofNat n⟩

instance : Inhabited (Binary F) := ⟨0⟩

/-- Change of sign. -/
def neg : Binary F → Binary F
  | nan => nan
  | infinity negative => infinity (!negative)
  | finite negative rank => finite (!negative) rank

/-- The same magnitude with the positive sign. -/
def abs : Binary F → Binary F
  | nan => nan
  | infinity _ => infinity false
  | finite _ rank => finite false rank

/-- Strictly smaller value. -/
def lt : Binary F → Binary F → Bool
  | nan, _ => false
  | _, nan => false
  | infinity s, infinity t => s && !t
  | infinity s, finite _ _ => s
  | finite _ _, infinity t => !t
  | x@(finite _ _), y@(finite _ _) => decide (x.toRat < y.toRat)

/-- Smaller or equal value; the two zeros are equal. -/
def le : Binary F → Binary F → Bool
  | nan, _ => false
  | _, nan => false
  | infinity s, infinity t => s || !t
  | infinity s, finite _ _ => s
  | finite _ _, infinity t => !t
  | x@(finite _ _), y@(finite _ _) => decide (x.toRat ≤ y.toRat)

instance : Neg (Binary F) := ⟨neg⟩

instance : LT (Binary F) := ⟨fun x y => x.lt y = true⟩

instance : LE (Binary F) := ⟨fun x y => x.le y = true⟩

instance (x y : Binary F) : Decidable (x < y) :=
  inferInstanceAs (Decidable (x.lt y = true))

instance (x y : Binary F) : Decidable (x ≤ y) :=
  inferInstanceAs (Decidable (x.le y = true))

/-- The nearest of the numbers from `low` to `high`; not-a-number stays. -/
def clamp (x low high : Binary F) : Binary F :=
  if x < low then low else if high < x then high else x

/-- The smaller of two numbers; the other one if one is not a number. -/
def min : Binary F → Binary F → Binary F
  | nan, y => y
  | x, nan => x
  | x, y => if y < x then y else x

end Binary
end MotorSupervisor
