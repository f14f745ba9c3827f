import Microwatt.Lib.Binary64

/-!
# Single-precision numbers

A 32-bit word as a floating-point datum, and when a 64-bit word denotes the same one.  Every
single-precision number has a double, and only zeroes keep the exponent field of the denormals.
-/

namespace Binary32

variable (x : BitVec 32)

def sign : Bool := x.getLsbD 31
def expField : BitVec 8 := x.extractLsb' 23 8
def fracField : BitVec 23 := x.extractLsb' 0 23

/-- Infinities and NaNs. -/
def IsSpecial : Prop := expField x = BitVec.allOnes 8

/-- The significand as an integer of 24 bits. -/
def significand : Nat := (if expField x = 0 then 0 else 2 ^ 23) + (fracField x).toNat

def scale : Nat := max (expField x).toNat 1

/-- The number that a finite word denotes. -/
def value : ℚ := (if sign x then -1 else 1) * significand x * 2 ^ (scale x - 150 : ℤ)

/-- `y` denotes the datum of `x`; the fraction of a special one stands on the left. -/
structure Widens (x : BitVec 32) (y : BitVec 64) : Prop where
  sign_eq : Binary64.sign y = sign x
  special_iff : Binary64.IsSpecial y ↔ IsSpecial x
  value_eq : ¬IsSpecial x → Binary64.value y = value x
  payload_eq : IsSpecial x → Binary64.fracField y = fracField x ++ 0#29

variable {x} {y : BitVec 64}

/-- The significands and scales decide whether finite words denote the same number. -/
theorem value_eq_of_parts {k l : Nat} (hsign : Binary64.sign y = sign x)
    (hsig : Binary64.significand y * 2 ^ k = significand x * 2 ^ l)
    (hscale : Binary64.scale y + l = scale x + k + 925) : Binary64.value y = value x := by
  have hcast : (Binary64.significand y : ℚ) * 2 ^ k = significand x * 2 ^ l := by
    exact_mod_cast hsig
  have hexp : (Binary64.scale y - 1075 : ℤ) = (scale x - 150 : ℤ) + k - l := by omega
  have hl : (2 : ℚ) ^ l ≠ 0 := pow_ne_zero _ two_ne_zero
  have hnum : (Binary64.significand y : ℚ) * (2 ^ k / 2 ^ l) = significand x := by
    rw [← mul_div_assoc, hcast, mul_div_assoc, div_self hl, mul_one]
  unfold Binary64.value value
  rw [hsign, hexp, zpow_sub₀ two_ne_zero, zpow_add₀ two_ne_zero, zpow_natCast, zpow_natCast, ← hnum]
  ring

theorem widens_of_special (hsign : Binary64.sign y = sign x) (hx : IsSpecial x)
    (hy : Binary64.IsSpecial y) (hfrac : Binary64.fracField y = fracField x ++ 0#29) :
    Widens x y where
  sign_eq := hsign
  special_iff := iff_of_true hy hx
  value_eq := fun h => absurd hx h
  payload_eq := fun _ => hfrac

/-- A finite word and one with its scaled significand. -/
theorem widens_of_finite {k l : Nat} (hsign : Binary64.sign y = sign x) (hx : ¬IsSpecial x)
    (hy : ¬Binary64.IsSpecial y)
    (hsig : Binary64.significand y * 2 ^ k = significand x * 2 ^ l)
    (hscale : Binary64.scale y + l = scale x + k + 925) : Widens x y where
  sign_eq := hsign
  special_iff := iff_of_false hy hx
  value_eq := fun _ => value_eq_of_parts hsign hsig hscale
  payload_eq := fun h => absurd h hx

end Binary32
