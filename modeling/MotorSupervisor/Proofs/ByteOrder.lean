import Mathlib.Data.String.Basic
import Mathlib.Order.Monotone.Basic
import Mathlib.Tactic.SplitIfs

/-!
# The byte order of text

Text is compared character by character, bytes one by one.  The two orders
agree on UTF-8: the first byte of a character tells how many bytes follow it,
more bytes mean a larger first byte, and among characters of the same length
the bytes are the digits of the code point to the base 64.  So two characters
differ in a byte before either of them ends, and what follows does not matter.

**Definitions.**
* `Utf8.bytes`: the bytes of a text.
* `Utf8.trailing`, `Utf8.marker`, `Utf8.tail`: the parts of a character.

**Results.**
* `utf8EncodeChar_eq`: the bytes of a character in these parts.
* `encodeChar_append_lt`: a smaller character has smaller bytes, whatever
  follows.
* `bytes_lt_of_lt`: a smaller text has smaller bytes.
-/

namespace MotorSupervisor
namespace Utf8

section CodePoints

/-- Number of bytes after the first one of a code point. -/
def trailing (v : Nat) : Nat :=
  if v ≤ 127 then 0 else if v ≤ 2047 then 1 else if v ≤ 65535 then 2 else 3

/-- The least first byte before some number of bytes. -/
def marker : Nat → Nat
  | 0 => 0
  | 1 => 192
  | 2 => 224
  | 3 => 240
  | _ => 248

/-- The first byte of a code point, before some number of bytes. -/
def lead (v k : Nat) : Nat :=
  v / 64 ^ k + marker k

/-- The last digits of a code point to the base 64, one byte each. -/
def tail (v : Nat) : Nat → List UInt8
  | 0 => []
  | k + 1 => UInt8.ofNat (v / 64 ^ k % 64 + 128) :: tail v k

theorem trailing_mono {v w : Nat} (h : v ≤ w) : trailing v ≤ trailing w := by
  unfold trailing
  split_ifs <;> omega

theorem marker_mono : Monotone marker := by
  apply monotone_nat_of_le_succ
  intro k
  rcases k with _ | _ | _ | _ | k <;> simp [marker]

theorem marker_le (k : Nat) : marker k ≤ 248 := by
  rcases k with _ | _ | _ | _ | k <;> simp [marker]

/-- The first byte tells how many bytes follow. -/
theorem lead_lt_marker {v : Nat} (h : v < 0x110000) :
    lead v (trailing v) < marker (trailing v + 1) := by
  unfold lead trailing
  split_ifs <;> simp only [marker] <;> omega

variable {v w : Nat}

theorem ofNat_lt_ofNat (h : v < w) (hw : w < 256) : UInt8.ofNat v < UInt8.ofNat w := by
  rw [UInt8.lt_iff_toNat_lt, UInt8.toNat_ofNat_of_lt' (h.trans hw), UInt8.toNat_ofNat_of_lt' hw]
  exact h

theorem tail_append_lt (h : v < w) (x y : List UInt8) (k : Nat)
    (hlead : v / 64 ^ k = w / 64 ^ k) : tail v k ++ x < tail w k ++ y := by
  induction k with
  | zero =>
      rw [Nat.pow_zero, Nat.div_one, Nat.div_one] at hlead
      exact absurd hlead h.ne
  | succ k ih =>
      rw [Nat.pow_succ, ← Nat.div_div_eq_div_mul, ← Nat.div_div_eq_div_mul] at hlead
      have hle : v / 64 ^ k ≤ w / 64 ^ k := Nat.div_le_div_right h.le
      rw [tail, tail, List.cons_append, List.cons_append, List.cons_lt_cons_iff]
      rcases hle.lt_or_eq with hlt | heq
      · exact Or.inl (ofNat_lt_ofNat (by omega) (by omega))
      · rw [heq]
        exact Or.inr ⟨rfl, ih heq⟩

/-- A smaller code point has smaller bytes, whatever follows. -/
theorem lead_tail_append_lt (h : v < w) (hw : w < 0x110000) (x y : List UInt8) :
    UInt8.ofNat (lead v (trailing v)) :: tail v (trailing v) ++ x <
      UInt8.ofNat (lead w (trailing w)) :: tail w (trailing w) ++ y := by
  have hbyte : lead w (trailing w) < 256 :=
    (lead_lt_marker hw).trans_le ((marker_le _).trans (by decide))
  rw [List.cons_append, List.cons_append, List.cons_lt_cons_iff]
  rcases (trailing_mono h.le).lt_or_eq with hlength | hlength
  · have hlead : lead v (trailing v) < lead w (trailing w) :=
      calc lead v (trailing v)
          < marker (trailing v + 1) := lead_lt_marker (h.trans hw)
        _ ≤ marker (trailing w) := marker_mono hlength
        _ ≤ lead w (trailing w) := Nat.le_add_left _ _
    exact Or.inl (ofNat_lt_ofNat hlead hbyte)
  · rw [hlength]
    have hle : v / 64 ^ trailing w ≤ w / 64 ^ trailing w := Nat.div_le_div_right h.le
    rcases hle.lt_or_eq with hlt | heq
    · exact Or.inl (ofNat_lt_ofNat (Nat.add_lt_add_right hlt _) hbyte)
    · rw [lead, lead, heq]
      exact Or.inr ⟨rfl, tail_append_lt h x y _ heq⟩

end CodePoints

section Characters

theorem toNat_val_lt (c : Char) : c.val.toNat < 0x110000 := by
  rcases c.valid with hlow | ⟨-, hhigh⟩
  · exact hlow.trans (by decide)
  · exact hhigh

/-- The bytes of a character. -/
theorem utf8EncodeChar_eq (c : Char) :
    String.utf8EncodeChar c =
      UInt8.ofNat (lead c.val.toNat (trailing c.val.toNat)) ::
        tail c.val.toNat (trailing c.val.toNat) := by
  have hmax := toNat_val_lt c
  unfold String.utf8EncodeChar lead trailing
  dsimp only
  generalize c.val.toNat = v at *
  split_ifs
  · simp [marker, tail]
  · have hfits : v / 64 % 32 = v / 64 := by omega
    simp [marker, tail, hfits]
  · have hfits : v / 4096 % 16 = v / 4096 := by omega
    simp [marker, tail, hfits]
  · have hfits : v / 262144 % 8 = v / 262144 := by omega
    simp [marker, tail, hfits]

theorem encodeChar_append_lt {c d : Char} (h : c < d) (x y : List UInt8) :
    String.utf8EncodeChar c ++ x < String.utf8EncodeChar d ++ y := by
  rw [utf8EncodeChar_eq, utf8EncodeChar_eq]
  exact lead_tail_append_lt (UInt32.lt_iff_toNat_lt.1 (Char.lt_def.1 h)) (toNat_val_lt d) x y

theorem flatMap_lt_flatMap {s t : List Char} (h : s < t) :
    s.flatMap String.utf8EncodeChar < t.flatMap String.utf8EncodeChar := by
  induction s generalizing t with
  | nil =>
      cases t with
      | nil => exact absurd h (List.lt_irrefl _)
      | cons d t =>
          rw [List.flatMap_nil, List.flatMap_cons, utf8EncodeChar_eq]
          exact List.nil_lt_cons _ _
  | cons c s ih =>
      cases t with
      | nil => exact absurd h (List.not_lt_nil _)
      | cons d t =>
          rw [List.flatMap_cons, List.flatMap_cons]
          rcases List.cons_lt_cons_iff.1 h with hhead | ⟨rfl, hrest⟩
          · exact encodeChar_append_lt hhead _ _
          · exact List.append_left_lt (ih hrest)

end Characters

/-- The bytes of a text. -/
def bytes (text : String) : List UInt8 :=
  text.toUTF8.data.toList

theorem bytes_eq_flatMap (text : String) :
    bytes text = text.toList.flatMap String.utf8EncodeChar := by
  rw [bytes, String.toUTF8_eq_toByteArray, ← String.utf8Encode_toList, List.utf8Encode,
    List.toList_data_toByteArray]

theorem bytes_lt_of_lt {a b : String} (h : a < b) : bytes a < bytes b := by
  rw [bytes_eq_flatMap, bytes_eq_flatMap]
  exact flatMap_lt_flatMap (String.lt_iff_toList_lt.1 h)

end Utf8
end MotorSupervisor
