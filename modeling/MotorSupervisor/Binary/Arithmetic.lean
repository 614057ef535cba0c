import MotorSupervisor.Binary.Basic

/-!
# Arithmetic on binary floating-point numbers

Sum, difference, product and quotient of finite numbers are the exact
rational result rounded once.  The remaining cases follow the usual rules:
not-a-number absorbs everything, opposite infinities do not add, an infinity
times zero and a quotient of two zeros or two infinities are not numbers, and
a non-zero number divided by zero is an infinity.

A sum that is exactly zero is positive unless both terms are negative; a
product or quotient has the sign of its operands' signs combined.
-/

namespace MotorSupervisor
namespace Binary

variable {F : Format}

/-- Sum, rounded once. -/
def add : Binary F → Binary F → Binary F
  | nan, _ => nan
  | _, nan => nan
  | infinity s, infinity t => if s = t then infinity s else nan
  | infinity s, finite _ _ => infinity s
  | finite _ _, infinity t => infinity t
  | x@(finite s _), y@(finite t _) => round (s && t) (x.toRat + y.toRat)

/-- Difference, rounded once. -/
def sub (x y : Binary F) : Binary F :=
  x.add (-y)

/-- Product, rounded once. -/
def mul : Binary F → Binary F → Binary F
  | nan, _ => nan
  | _, nan => nan
  | infinity s, infinity t => infinity (s ^^ t)
  | infinity s, finite t rank => if rank.val = 0 then nan else infinity (s ^^ t)
  | finite s rank, infinity t => if rank.val = 0 then nan else infinity (s ^^ t)
  | x@(finite s _), y@(finite t _) => round (s ^^ t) (x.toRat * y.toRat)

/-- Quotient, rounded once. -/
def div : Binary F → Binary F → Binary F
  | nan, _ => nan
  | _, nan => nan
  | infinity _, infinity _ => nan
  | infinity s, finite t _ => infinity (s ^^ t)
  | finite s _, infinity t => round (s ^^ t) 0
  | x@(finite s rank), y@(finite t divisor) =>
      if divisor.val = 0 then
        if rank.val = 0 then nan else infinity (s ^^ t)
      else round (s ^^ t) (x.toRat / y.toRat)

instance : Add (Binary F) := ⟨add⟩

instance : Sub (Binary F) := ⟨sub⟩

instance : Mul (Binary F) := ⟨mul⟩

instance : Div (Binary F) := ⟨div⟩

/-- The integral part as a 32-bit word, at the nearest end of the word range
for values outside it and `0` for not-a-number. -/
def toWord : Binary F → UInt32
  | nan => 0
  | infinity negative => if negative then 0 else UInt32.ofNat (UInt32.size - 1)
  | x@(finite _ _) =>
      UInt32.ofNat (Nat.min (UInt32.size - 1) x.toRat.floor.toNat)

end Binary
end MotorSupervisor
