/-!
# Binary formats and rounding

A binary interchange format is given by the widths of its exponent and
fraction fields.  The non-negative finite numbers of a format, in increasing
order, are numbered by their **rank**: rank `0` is zero, rank `1` the least
positive number, and so on.  The rank is at the same time the bit pattern of
the number, because the formats are laid out so that patterns and magnitudes
have the same order.

**Definitions.**
* `Format.magnitude`: the rational number of a rank.
* `Format.floorRank`: the last rank whose magnitude does not exceed a
  non-negative rational.
* `Format.midpoint`: the number halfway between a rank and the next one.
* `Format.nearestRank`: the rank nearest to a non-negative rational; halfway
  between two ranks the even one.

Magnitudes continue past the largest finite number as if the exponent field
were unbounded, so `nearestRank` also says when a rational is too large for
the format: exactly when the rank reaches `Format.infinityRank`.
-/

namespace MotorSupervisor

/-- Field widths of a binary interchange format. -/
structure Format where
  /-- Width of the exponent field. -/
  exponentBits : Nat
  /-- Width of the fraction field; one less than the precision. -/
  fractionBits : Nat
deriving DecidableEq

namespace Format

/-- The 32-bit format. -/
def single : Format := ⟨8, 23⟩

/-- The 64-bit format. -/
def double : Format := ⟨11, 52⟩

variable (F : Format)

/-- Number of ranks that share one exponent. -/
def binade : Nat :=
  1 <<< F.fractionBits

/-- Exponent of the least positive number, `2 ^ leastExponent`. -/
def leastExponent : Int :=
  2 - ((1 <<< (F.exponentBits - 1) : Nat) : Int) - F.fractionBits

/-- The first rank past the finite numbers. -/
def infinityRank : Nat :=
  ((1 <<< F.exponentBits) - 1) * F.binade

/-- Significand of a rank: its fraction field, with the leading one that every
rank outside the first binade has. -/
def significand (rank : Nat) : Nat :=
  if rank < F.binade then rank else F.binade + rank % F.binade

/-- Steps between the exponent of a rank and the least exponent.  The first two
binades share the least exponent. -/
def shift (rank : Nat) : Nat :=
  rank / F.binade - 1

/-- `significand * 2 ^ exponent`, reduced once. -/
def scaled (significand : Nat) : Int → Rat
  | .ofNat e => ((significand <<< e : Nat) : Rat)
  | .negSucc e => mkRat significand (1 <<< (e + 1))

/-- The number of a rank. -/
def magnitude (rank : Nat) : Rat :=
  scaled (F.significand rank) (F.leastExponent + F.shift rank)

/-- The exponent `e` with `2 ^ e ≤ q < 2 ^ (e + 1)`, for a positive `q`. -/
def floorLog (q : Rat) : Int :=
  let e : Int := (Nat.log2 q.num.natAbs : Int) - (Nat.log2 q.den : Int)
  if scaled 1 e ≤ q then e else e - 1

/-- The largest natural number not above `q / 2 ^ e`, for a non-negative `q`. -/
def floorQuotient (q : Rat) : Int → Nat
  | .ofNat e => q.num.toNat / (q.den <<< e)
  | .negSucc e => (q.num.toNat <<< (e + 1)) / q.den

/-- The last rank whose magnitude does not exceed `q`, for a non-negative `q`. -/
def floorRank (q : Rat) : Nat :=
  if q = 0 then 0
  else
    let shift := (floorLog q - F.fractionBits - F.leastExponent).toNat
    shift * F.binade + floorQuotient q (F.leastExponent + shift)

/-- The number halfway between a rank and the next one, half a step above the
rank. -/
def midpoint (rank : Nat) : Rat :=
  scaled (2 * F.significand rank + 1) (F.leastExponent + F.shift rank - 1)

/-- The rank nearest to a non-negative `q`, the even one of two equally near. -/
def nearestRank (q : Rat) : Nat :=
  let below := F.floorRank q
  let midpoint := F.midpoint below
  if q < midpoint then below
  else if midpoint < q then below + 1
  else below + below % 2

end Format
end MotorSupervisor
