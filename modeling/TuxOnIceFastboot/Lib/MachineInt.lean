import Mathlib

/-!
# Conversions to fixed-width C integers

C converts a value to a `w`-bit unsigned type by reducing it modulo `2^w`, and (on every
machine the kernel runs on) to a `w`-bit signed type by reducing it into `[-2^(w-1), 2^(w-1))`;
`Int.emod` and `Int.bmod` with modulus `2^w` are exactly these reductions. Arithmetic between
a signed and an unsigned operand of one width is carried out on the unsigned conversions. The
lemmas say when a conversion does nothing.
-/

namespace TuxOnIceFastboot.Lib

/-- The value a `w`-bit unsigned integer holds after `x` is converted to it. -/
def toUnsigned (w : Nat) (x : Int) : Nat := (x % 2 ^ w).toNat

/-- The value a `w`-bit signed integer holds after `x` is converted to it. -/
def toSigned (w : Nat) (x : Int) : Int := Int.bmod x (2 ^ w)

/-- The value an `int` holds after `x` is assigned to it. -/
def toInt32 (x : Int) : Int := toSigned 32 x

theorem toUnsigned_of_lt {w : Nat} {x : Int} (h0 : 0 ≤ x) (hlt : x < 2 ^ w) :
    (toUnsigned w x : Int) = x := by
  unfold toUnsigned
  rw [Int.emod_eq_of_lt h0 hlt, Int.toNat_of_nonneg h0]

theorem toSigned_of_fits {w : Nat} {x : Int} (hlo : -2 ^ w ≤ x * 2) (hhi : x * 2 < 2 ^ w) :
    toSigned w x = x := by
  unfold toSigned
  apply Int.bmod_eq_of_le_mul_two <;> push_cast <;> omega

theorem toInt32_of_fits {x : Int} (hlo : -2 ^ 31 ≤ x) (hhi : x < 2 ^ 31) : toInt32 x = x :=
  toSigned_of_fits (by omega) (by omega)

theorem toInt32_lt (x : Int) : toInt32 x < 2 ^ 31 := by
  have h := Int.bmod_lt (x := x) (m := 2 ^ 32) (by decide)
  unfold toInt32 toSigned
  have : (((2 ^ 32 : Nat) : Int) + 1) / 2 = 2 ^ 31 := by decide
  omega

@[simp] theorem toInt32_zero : toInt32 0 = 0 := toInt32_of_fits (by decide) (by decide)

theorem toInt32_add (x y : Int) : toInt32 (toInt32 x + y) = toInt32 (x + y) := by
  unfold toInt32 toSigned
  exact Int.bmod_add_bmod

end TuxOnIceFastboot.Lib
