import Mathlib.Data.Rat.Defs
import Mathlib.Algebra.Order.Field.Power
import Mathlib.Algebra.Order.Field.Rat
import Mathlib.Order.WithBot
import Mathlib.Tactic.Ring
import Mathlib.Tactic.Positivity
import Mathlib.Tactic.FieldSimp

/-!
# Double-precision numbers

A 64-bit word as a floating-point datum: its fields, the rational number that it denotes, and the
order of two data.  Words of one sign and one exponent are ordered as their significands, and a
larger exponent makes a larger magnitude, although denormals have no leading one.
-/

namespace Binary64

variable (w : BitVec 64)

def sign : Bool := w.getLsbD 63
def expField : BitVec 11 := w.extractLsb' 52 11
def fracField : BitVec 52 := w.extractLsb' 0 52

/-- Infinities and NaNs. -/
def IsSpecial : Prop := expField w = BitVec.allOnes 11

instance : Decidable (IsSpecial w) := inferInstanceAs (Decidable (_ = _))

def IsNan : Prop := IsSpecial w ∧ fracField w ≠ 0

instance : Decidable (IsNan w) := inferInstanceAs (Decidable (_ ∧ _))

/-- A NaN whose first fraction bit is zero. -/
def IsSignalling : Prop := IsNan w ∧ (fracField w).getLsbD 51 = false

instance : Decidable (IsSignalling w) := inferInstanceAs (Decidable (_ ∧ _))

/-- The significand as an integer of 53 bits. -/
def significand : Nat := (if expField w = 0 then 0 else 2 ^ 52) + (fracField w).toNat

/-- The exponent field of a normal number; denormals have the scale of the smallest of these. -/
def scale : Nat := max (expField w).toNat 1

/-- The number that a finite word denotes. -/
def value : ℚ := (if sign w then -1 else 1) * significand w * 2 ^ (scale w - 1075 : ℤ)

/-- The place of a datum that is not a NaN. -/
def extended : WithBot (WithTop ℚ) :=
  if IsSpecial w then if sign w then ⊥ else ⊤ else ((value w : WithTop ℚ) : WithBot (WithTop ℚ))

/-- The outcomes of a comparison. -/
inductive Relation where
  | less | greater | equal | unordered
deriving DecidableEq

/-- The relation seen from the other side. -/
def Relation.swap : Relation → Relation
  | less => greater
  | greater => less
  | equal => equal
  | unordered => unordered

/-- How the first datum compares to the second. -/
def relation (a b : BitVec 64) : Relation :=
  if IsNan a ∨ IsNan b then .unordered
  else if extended a < extended b then .less
  else if extended b < extended a then .greater
  else .equal

theorem relation_swap (a b : BitVec 64) : relation b a = (relation a b).swap := by
  unfold relation
  by_cases hnan : IsNan a ∨ IsNan b
  · rw [if_pos hnan, if_pos hnan.symm]
    rfl
  · rw [if_neg hnan, if_neg fun h => hnan h.symm]
    rcases lt_trichotomy (extended a) (extended b) with h | h | h
    · rw [if_neg h.not_gt, if_pos h, if_pos h]
      rfl
    · rw [h]
      simp only [lt_irrefl, if_false]
      rfl
    · rw [if_pos h, if_neg h.not_gt, if_pos h]
      rfl

/-! ## Magnitudes -/

/-- The absolute value, in units of `2 ^ -1075`. -/
def magnitude : Nat := significand w * 2 ^ scale w

theorem value_eq : value w = (if sign w then -1 else 1) * magnitude w * 2 ^ (-1075 : ℤ) := by
  unfold value magnitude
  rw [sub_eq_add_neg, zpow_add₀ two_ne_zero, zpow_natCast]
  rw [Nat.cast_mul, Nat.cast_pow, Nat.cast_ofNat]
  ring

theorem significand_lt : significand w < 2 ^ 53 := by
  have hfrac := (fracField w).isLt
  unfold significand
  split_ifs <;> omega

theorem magnitude_lt_of_scale_lt {a b : BitVec 64} (h : scale a < scale b) :
    magnitude a < magnitude b := by
  have hnorm : expField b ≠ 0 := by
    intro h0
    unfold scale at h
    rw [h0] at h
    simp at h
  have hsig : 2 ^ 52 ≤ significand b := by
    unfold significand
    rw [if_neg hnorm]
    omega
  calc magnitude a < 2 ^ 53 * 2 ^ scale a :=
        Nat.mul_lt_mul_of_pos_right (significand_lt a) (by positivity)
    _ = 2 ^ 52 * 2 ^ (scale a + 1) := by ring
    _ ≤ 2 ^ 52 * 2 ^ scale b := Nat.mul_le_mul_left _ (Nat.pow_le_pow_right (by decide) h)
    _ ≤ magnitude b := Nat.mul_le_mul_right _ hsig

theorem magnitude_lt_iff_of_scale_eq {a b : BitVec 64} (h : scale a = scale b) :
    magnitude a < magnitude b ↔ significand a < significand b := by
  unfold magnitude
  rw [h]
  exact Nat.mul_lt_mul_right (by positivity)

theorem magnitude_eq_zero : magnitude w = 0 ↔ expField w = 0 ∧ fracField w = 0 := by
  unfold magnitude significand
  rw [mul_eq_zero, or_iff_left (by positivity)]
  constructor
  · intro h
    split_ifs at h with h0
    · exact ⟨h0, BitVec.eq_of_toNat_eq (by simpa using h)⟩
    · omega
  · rintro ⟨h0, hf⟩
    rw [if_pos h0, hf]
    rfl

/-! ## The order of finite words -/

theorem value_lt_iff (a b : BitVec 64) : value a < value b ↔
    (if sign a then -(magnitude a : ℤ) else magnitude a) <
      (if sign b then -(magnitude b : ℤ) else magnitude b) := by
  have hunit : (0 : ℚ) < 2 ^ (-1075 : ℤ) := zpow_pos two_pos _
  rw [value_eq, value_eq, mul_lt_mul_iff_left₀ hunit, ← Int.cast_lt (R := ℚ)]
  cases sign a <;> cases sign b <;> simp

end Binary64
