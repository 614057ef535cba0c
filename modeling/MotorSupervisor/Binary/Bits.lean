import MotorSupervisor.Binary.Basic

/-!
# Bit patterns of binary floating-point numbers

The interchange encoding of a number is its sign bit above its rank.  The
patterns past `infinityRank` of either sign all decode to the one
not-a-number, which is encoded by the first quiet pattern.
-/

namespace MotorSupervisor
namespace Binary

variable {F : Format}

/-- Weight of the sign bit. -/
def signWeight (F : Format) : Nat :=
  (1 <<< F.exponentBits) * F.binade

/-- The bit pattern of a number. -/
def toBits : Binary F → Nat
  | nan => F.infinityRank + F.binade / 2
  | infinity negative => (if negative then signWeight F else 0) + F.infinityRank
  | finite negative rank => (if negative then signWeight F else 0) + rank.val

/-- The number of a bit pattern; bits above the sign are ignored. -/
def ofBits (bits : Nat) : Binary F :=
  let negative := bits / signWeight F % 2 == 1
  let rank := bits % signWeight F
  if h : rank < F.infinityRank then finite negative ⟨rank, h⟩
  else if rank = F.infinityRank then infinity negative
  else nan

/-- Encoding loses nothing. -/
theorem ofBits_toBits_finite (negative : Bool) (rank : Fin F.infinityRank) :
    ofBits (toBits (finite negative rank)) = finite negative rank := by
  have hsign : F.infinityRank ≤ signWeight F := by
    unfold Format.infinityRank signWeight
    exact Nat.mul_le_mul_right _ (Nat.sub_le _ _)
  have hlt : rank.val < signWeight F := Nat.lt_of_lt_of_le rank.isLt hsign
  have hpos : 0 < signWeight F := Nat.lt_of_le_of_lt (Nat.zero_le _) hlt
  cases negative with
  | false =>
      have hrank : rank.val % signWeight F = rank.val := Nat.mod_eq_of_lt hlt
      simp [toBits, ofBits, hrank, Nat.div_eq_of_lt hlt]
  | true =>
      have hrank : (signWeight F + rank.val) % signWeight F = rank.val := by
        rw [Nat.add_mod_left, Nat.mod_eq_of_lt hlt]
      have hdiv : (signWeight F + rank.val) / signWeight F = 1 := by
        rw [Nat.add_div_left _ hpos, Nat.div_eq_of_lt hlt]
      simp [toBits, ofBits, hrank, hdiv]

end Binary
end MotorSupervisor
