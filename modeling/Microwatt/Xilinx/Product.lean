import Microwatt.Xilinx.Multiply
import Microwatt.Lib.Bits

/-!
# What the slices compute

The exact values behind the vectors of `Microwatt.Xilinx.Mult`.  A pair of slices that holds an
operation has the sum of the addend's piece and the product of a piece of `data1` and two pieces of
`data2`; the six pairs, each at its place, add up to the operation modulo `2 ^ 128`.
-/

namespace Microwatt.Xilinx

open Dsp48

variable {D : Slice}

/-! ## The pieces as integers -/

section Pieces

variable (i : MultiplyInput)

/-- The pieces of `data1`. -/
def x0 : Int := (i.data1.extractLsb' 0 24).toNat
def x1 : Int := (i.data1.extractLsb' 24 24).toNat
def x2 : Int :=
    (i.data1.extractLsb' 48 16).toNat - 2 ^ 16 * (i.data1.getLsbD 63 && i.isSigned).toNat

/-- The pieces of `data2`. -/
def y0 : Int := (i.data2.extractLsb' 0 17).toNat
def y1 : Int := (i.data2.extractLsb' 17 17).toNat
def y2 : Int := (i.data2.extractLsb' 34 17).toNat
def y3 : Int :=
    (i.data2.extractLsb' 51 13).toNat - 2 ^ 13 * (i.data2.getLsbD 63 && i.isSigned).toNat

theorem toInt_a0 : ((a0 i).extractLsb' 0 25).toInt = x0 i := by
  have h := @toInt_extractLsb'_fill_append 6 24 false (i.data1.extractLsb' 0 24) 0 24 1 rfl
    (by decide) (by decide)
  rw [BitVec.extractLsb'_eq_self, Bool.toNat_false, Nat.cast_zero, mul_zero, sub_zero] at h
  exact h

theorem toInt_a1 : ((a1 i).extractLsb' 0 25).toInt = x1 i := by
  have h := @toInt_extractLsb'_fill_append 6 24 false (i.data1.extractLsb' 24 24) 0 24 1 rfl
    (by decide) (by decide)
  rw [BitVec.extractLsb'_eq_self, Bool.toNat_false, Nat.cast_zero, mul_zero, sub_zero] at h
  exact h

theorem toInt_a2 : ((a2 i).extractLsb' 0 25).toInt = x2 i := by
  have h := @toInt_extractLsb'_fill_append 14 16 (i.data1.getLsbD 63 && i.isSigned)
    (i.data1.extractLsb' 48 16) 0 16 9 rfl (by decide) (by decide)
  rw [BitVec.extractLsb'_eq_self] at h
  exact h

theorem toInt_b0 : (b0 i).toInt = y0 i := by
  rw [show b0 i = fill 1 false ++ i.data2.extractLsb' 0 17 from rfl, toInt_fill_append (by decide)]
  simp [y0]

theorem toInt_b1 : (b1 i).toInt = y1 i := by
  rw [show b1 i = fill 1 false ++ i.data2.extractLsb' 17 17 from rfl, toInt_fill_append (by decide)]
  simp [y1]

theorem toInt_b2 : (b2 i).toInt = y2 i := by
  rw [show b2 i = fill 1 false ++ i.data2.extractLsb' 34 17 from rfl, toInt_fill_append (by decide)]
  simp [y2]

theorem toInt_b3 : (b3 i).toInt = y3 i := by
  rw [b3, d2sign, toInt_fill_append (by decide), y3]

/-- An operand of the portable multiplier, as an integer. -/
def operandValue (isSigned : Bool) (data : BitVec 64) : Int :=
  data.toNat - 2 ^ 64 * (data.getLsbD 63 && isSigned).toNat

theorem operand_eq_ofInt (isSigned : Bool) (data : BitVec 64) :
    Multiply.operand isSigned data = BitVec.ofInt 128 (operandValue isSigned data) := by
  cases isSigned with
  | false => simp [Multiply.operand, operandValue, BitVec.ofInt_natCast, BitVec.ofNat_toNat]
  | true =>
    rw [Multiply.operand, if_pos rfl, signExtend_eq_ofInt, BitVec.toInt_eq_msb_cond,
      BitVec.msb_eq_getLsbD_last]
    congr 1
    cases h : data.getLsbD 63 <;> simp only [operandValue, h] <;> simp

theorem operandValue_data1 :
    operandValue i.isSigned i.data1 = x0 i + 2 ^ 24 * x1 i + 2 ^ 48 * x2 i := by
  simp only [operandValue, x0, x1, x2, BitVec.extractLsb'_toNat, Nat.shiftRight_eq_div_pow]
  have := i.data1.isLt
  omega

theorem operandValue_data2 :
    operandValue i.isSigned i.data2 =
      y0 i + 2 ^ 17 * y1 i + 2 ^ 34 * y2 i + 2 ^ 51 * y3 i := by
  simp only [operandValue, y0, y1, y2, y3, BitVec.extractLsb'_toNat, Nat.shiftRight_eq_div_pow]
  have := i.data2.isLt
  omega

theorem x0_bounds : 0 ≤ x0 i ∧ x0 i < 2 ^ 24 := by
  have := (i.data1.extractLsb' 0 24).isLt
  exact ⟨Int.natCast_nonneg _, by unfold x0; omega⟩

theorem x1_bounds : 0 ≤ x1 i ∧ x1 i < 2 ^ 24 := by
  have := (i.data1.extractLsb' 24 24).isLt
  exact ⟨Int.natCast_nonneg _, by unfold x1; omega⟩

theorem x2_bounds : -2 ^ 16 ≤ x2 i ∧ x2 i < 2 ^ 16 := by
  have := (i.data1.extractLsb' 48 16).isLt
  have := Bool.toNat_le (i.data1.getLsbD 63 && i.isSigned)
  unfold x2
  omega

theorem y0_bounds : 0 ≤ y0 i ∧ y0 i < 2 ^ 17 := by
  have := (i.data2.extractLsb' 0 17).isLt
  exact ⟨Int.natCast_nonneg _, by unfold y0; omega⟩

theorem y1_bounds : 0 ≤ y1 i ∧ y1 i < 2 ^ 17 := by
  have := (i.data2.extractLsb' 17 17).isLt
  exact ⟨Int.natCast_nonneg _, by unfold y1; omega⟩

theorem y2_bounds : 0 ≤ y2 i ∧ y2 i < 2 ^ 17 := by
  have := (i.data2.extractLsb' 34 17).isLt
  exact ⟨Int.natCast_nonneg _, by unfold y2; omega⟩

theorem y3_bounds : -2 ^ 13 ≤ y3 i ∧ y3 i < 2 ^ 13 := by
  have := (i.data2.extractLsb' 51 13).isLt
  have := Bool.toNat_le (i.data2.getLsbD 63 && i.isSigned)
  unfold y3
  omega

end Pieces

/-! ## A pair of slices -/

section Pairs

theorem first_p (s : D.State) (j : PortIn) : (D.out first s j).p = (D.regs s).o.p := by
  rw [D.out_eq]
  rfl

theorem second_p (s : D.State) (a : BitVec 30) (b : BitVec 18) (pcin : BitVec 48) (valid : Bool) :
    (D.out second s (secondIn a b pcin valid)).p = pcin.sshiftRight 17 + (D.regs s).m := by
  rw [D.out_eq]
  exact BitVec.add_zero _

theorem first_next_cPlusM (s : D.State) (a : BitVec 30) (b : BitVec 18) (c : BitVec 48) :
    (D.regs (D.next first s (firstIn a b c .cPlusM true))).o.p =
      BitVec.ofInt 48 (c.toNat + (a.extractLsb' 0 25).toInt * b.toInt) := by
  have hsum : (D.regs (D.next first s (firstIn a b c .cPlusM true))).o.p = c + mult a b + 0#48 := by
    rw [D.next_eq]
    rfl
  rw [hsum, BitVec.add_zero, mult_eq, BitVec.ofInt_add, BitVec.ofInt_natCast, BitVec.ofNat_toNat,
    BitVec.setWidth_eq]

theorem first_next_m (s : D.State) (a : BitVec 30) (b : BitVec 18) (c : BitVec 48) :
    (D.regs (D.next first s (firstIn a b c .m true))).o.p =
      BitVec.ofInt 48 ((a.extractLsb' 0 25).toInt * b.toInt) := by
  have hsum : (D.regs (D.next first s (firstIn a b c .m true))).o.p = 0#48 + mult a b + 0#48 := by
    rw [D.next_eq]
    rfl
  rw [hsum, BitVec.add_zero, BitVec.zero_add, mult_eq]

theorem second_next_m (s : D.State) (a : BitVec 30) (b : BitVec 18) (pcin : BitVec 48) :
    (D.regs (D.next second s (secondIn a b pcin true))).m =
      BitVec.ofInt 48 ((a.extractLsb' 0 25).toInt * b.toInt) := by
  have hm : (D.regs (D.next second s (secondIn a b pcin true))).m = mult a b := by
    rw [D.next_eq]
    rfl
  rw [hm, mult_eq]

/-- A pair of slices has `add + x * (y + 2 ^ 17 * y')`. -/
def PairHolds (s s' : D.State) (x y y' add : Int) : Prop :=
  (D.regs s).o.p = BitVec.ofInt 48 (add + x * y) ∧ (D.regs s').m = BitVec.ofInt 48 (x * y')

/-- The low bits of what a pair puts out. -/
theorem PairHolds.append {s s' : D.State} {x y y' add : Int} (h : PairHolds s s' x y y' add)
    {j : PortIn} {a : BitVec 30} {b : BitVec 18} {valid : Bool} (hlo : -2 ^ 47 ≤ add + x * y)
    (hhi : add + x * y < 2 ^ 47) {n : Nat} (hn : n ≤ 48) :
    (D.out second s' (secondIn a b (D.out first s j).p valid)).p.extractLsb' 0 n ++
        (D.out first s j).p.extractLsb' 0 17 =
      BitVec.ofInt (n + 17) (add + x * (y + 2 ^ 17 * y')) := by
  rw [second_p, first_p, h.1, h.2, cascade_append hlo hhi hn]
  congr 1
  ring

end Pairs

/-! ## The partial products -/

section PartialProducts

variable (i : MultiplyInput)

/-- The pieces of `addend`. -/
def e0 : Int := ((addend i).extractLsb' 0 34).toNat
def e1 : Int := ((addend i).extractLsb' 34 24).toNat
def e2 : Int := ((addend i).extractLsb' 58 24).toNat
def e3 : Int := ((addend i).extractLsb' 82 46).toNat

theorem addend_toNat :
    ((addend i).toNat : Int) = e0 i + 2 ^ 34 * e1 i + 2 ^ 58 * e2 i + 2 ^ 82 * e3 i := by
  simp only [e0, e1, e2, e3, BitVec.extractLsb'_toNat, Nat.shiftRight_eq_div_pow]
  have := (addend i).isLt
  omega

theorem e0_bounds : 0 ≤ e0 i ∧ e0 i < 2 ^ 34 := by
  have := ((addend i).extractLsb' 0 34).isLt
  exact ⟨Int.natCast_nonneg _, by unfold e0; omega⟩

theorem e1_bounds : 0 ≤ e1 i ∧ e1 i < 2 ^ 24 := by
  have := ((addend i).extractLsb' 34 24).isLt
  exact ⟨Int.natCast_nonneg _, by unfold e1; omega⟩

theorem e2_bounds : 0 ≤ e2 i ∧ e2 i < 2 ^ 24 := by
  have := ((addend i).extractLsb' 58 24).isLt
  exact ⟨Int.natCast_nonneg _, by unfold e2; omega⟩

theorem e3_bounds : 0 ≤ e3 i ∧ e3 i < 2 ^ 46 := by
  have := ((addend i).extractLsb' 82 46).isLt
  exact ⟨Int.natCast_nonneg _, by unfold e3; omega⟩

/-- What the pairs add up to. -/
def v00 : Int := e0 i + x0 i * (y0 i + 2 ^ 17 * y1 i)
def v02 : Int := e1 i + x0 i * (y2 i + 2 ^ 17 * y3 i)
def v10 : Int := x1 i * (y0 i + 2 ^ 17 * y1 i)
def v12 : Int := e2 i + x1 i * (y2 i + 2 ^ 17 * y3 i)
def v20 : Int := x2 i * (y0 i + 2 ^ 17 * y1 i)
def v22 : Int := e3 i + x2 i * (y2 i + 2 ^ 17 * y3 i)

theorem sum_pairs :
    v00 i + 2 ^ 34 * v02 i + 2 ^ 24 * v10 i + 2 ^ 58 * v12 i + 2 ^ 48 * v20 i + 2 ^ 82 * v22 i =
      operandValue i.isSigned i.data1 * operandValue i.isSigned i.data2 + (addend i).toNat := by
  rw [operandValue_data1, operandValue_data2, addend_toNat]
  unfold v00 v02 v10 v12 v20 v22
  ring

/-- The low half of `data2`. -/
theorem low_bounds : 0 ≤ y0 i + 2 ^ 17 * y1 i ∧ y0 i + 2 ^ 17 * y1 i ≤ 2 ^ 34 - 1 := by
  have := y0_bounds i
  have := y1_bounds i
  omega

/-- The high half of `data2`. -/
theorem high_bounds :
    -2 ^ 30 ≤ y2 i + 2 ^ 17 * y3 i ∧ y2 i + 2 ^ 17 * y3 i ≤ 2 ^ 30 - 1 := by
  have := y2_bounds i
  have := y3_bounds i
  omega

theorem v00_bounds : 0 ≤ v00 i ∧ v00 i < 2 ^ 58 := by
  have := x0_bounds i
  have := low_bounds i
  have := e0_bounds i
  unfold v00
  constructor <;> nlinarith

theorem v02_bounds : -2 ^ 54 ≤ v02 i ∧ v02 i < 2 ^ 54 := by
  have := x0_bounds i
  have := high_bounds i
  have := e1_bounds i
  unfold v02
  constructor <;> nlinarith

theorem v10_bounds : 0 ≤ v10 i ∧ v10 i < 2 ^ 58 := by
  have := x1_bounds i
  have := low_bounds i
  unfold v10
  constructor <;> nlinarith

theorem v12_bounds : -2 ^ 54 ≤ v12 i ∧ v12 i < 2 ^ 54 := by
  have := x1_bounds i
  have := high_bounds i
  have := e2_bounds i
  unfold v12
  constructor <;> nlinarith

theorem v20_bounds : -2 ^ 50 ≤ v20 i ∧ v20 i < 2 ^ 50 := by
  have := x2_bounds i
  have := low_bounds i
  unfold v20
  constructor <;> nlinarith

end PartialProducts

namespace Mult

/-- The six pairs have an operation. -/
structure Holds (u : Mult D) (i : MultiplyInput) : Prop where
  p00 : PairHolds u.m00 u.m01 (x0 i) (y0 i) (y1 i) (e0 i)
  p02 : PairHolds u.m02 u.m03 (x0 i) (y2 i) (y3 i) (e1 i)
  p10 : PairHolds u.m10 u.m11 (x1 i) (y0 i) (y1 i) 0
  p12 : PairHolds u.m12 u.m13 (x1 i) (y2 i) (y3 i) (e2 i)
  p20 : PairHolds u.m20 u.m21 (x2 i) (y0 i) (y1 i) 0
  p22 : PairHolds u.m22 u.m23 (x2 i) (y2 i) (y3 i) (e3 i)

theorem holds_step (u : Mult D) {i : MultiplyInput} (hv : i.valid = true) :
    Holds (u.step i) i := by
  have hc00 : ((c00 i).toNat : Int) = e0 i := congrArg _ (Bits.toNat_zero_append _)
  have hc02 : ((c02 i).toNat : Int) = e1 i := congrArg _ (Bits.toNat_zero_append _)
  have hc12 : ((c12 i).toNat : Int) = e2 i := congrArg _ (Bits.toNat_zero_append _)
  have hc22 : ((c22 i).toNat : Int) = e3 i := congrArg _ (Bits.toNat_zero_append _)
  constructor <;> constructor <;>
    simp only [step, in00, in01, in02, in03, in10, in11, in12, in13, in20, in21, in22, in23, hv,
      first_next_cPlusM, first_next_m, second_next_m, toInt_a0, toInt_a1, toInt_a2, toInt_b0,
      toInt_b1, toInt_b2, toInt_b3, hc00, hc02, hc12, hc22, zero_add]

variable {u : Mult D} {i : MultiplyInput}

theorem Holds.append00 (h : Holds u i) (j : MultiplyInput) :
    (u.m01P j).extractLsb' 0 41 ++ (u.m00P j).extractLsb' 0 17 = BitVec.ofInt 58 (v00 i) := by
  have hx := x0_bounds i
  have hy := y0_bounds i
  have he := e0_bounds i
  exact h.p00.append (by nlinarith) (by nlinarith) (by decide)

theorem Holds.append02 (h : Holds u i) (j : MultiplyInput) :
    (u.m03P j).extractLsb' 0 38 ++ (u.m02P j).extractLsb' 0 17 = BitVec.ofInt 55 (v02 i) := by
  have hx := x0_bounds i
  have hy := y2_bounds i
  have he := e1_bounds i
  exact h.p02.append (by nlinarith) (by nlinarith) (by decide)

theorem Holds.append10 (h : Holds u i) (j : MultiplyInput) :
    (u.m11P j).extractLsb' 0 41 ++ (u.m10P j).extractLsb' 0 17 = BitVec.ofInt 58 (v10 i) := by
  have hx := x1_bounds i
  have hy := y0_bounds i
  rw [v10, ← zero_add (x1 i * _)]
  exact h.p10.append (by nlinarith) (by nlinarith) (by decide)

theorem Holds.append12 (h : Holds u i) (j : MultiplyInput) :
    (u.m13P j).extractLsb' 0 38 ++ (u.m12P j).extractLsb' 0 17 = BitVec.ofInt 55 (v12 i) := by
  have hx := x1_bounds i
  have hy := y2_bounds i
  have he := e2_bounds i
  exact h.p12.append (by nlinarith) (by nlinarith) (by decide)

theorem Holds.append20 (h : Holds u i) (j : MultiplyInput) :
    (u.m21P j).extractLsb' 0 35 ++ (u.m20P j).extractLsb' 0 17 = BitVec.ofInt 52 (v20 i) := by
  have hx := x2_bounds i
  have hy := y0_bounds i
  rw [v20, ← zero_add (x2 i * _)]
  exact h.p20.append (by nlinarith) (by nlinarith) (by decide)

theorem Holds.append22 (h : Holds u i) (j : MultiplyInput) :
    (u.m23P j).extractLsb' 0 29 ++ (u.m22P j).extractLsb' 0 17 = BitVec.ofInt 46 (v22 i) := by
  have hx := x2_bounds i
  have hy := y2_bounds i
  have he := e3_bounds i
  exact h.p22.append (by nlinarith) (by nlinarith) (by decide)

theorem Holds.pp0 (h : Holds u i) (j : MultiplyInput) :
    u.pp0 j = BitVec.ofInt 128 (2 ^ 58 * v12 i + v00 i) := by
  have hlo := v00_bounds i
  have hhi := v12_bounds i
  rw [Mult.pp0, h.append12, h.append00, append_ofInt, Int.emod_eq_of_lt hlo.1 hlo.2,
    signExtend_ofInt (by decide) (by omega) (by omega)]

theorem Holds.pp1 (h : Holds u i) (j : MultiplyInput) :
    u.pp1 j = BitVec.ofInt 128 (2 ^ 24 * (v10 i + 2 ^ 58 * v22 i)) := by
  have hlo := v10_bounds i
  rw [Mult.pp1, h.append22, h.append10, append_ofInt, Int.emod_eq_of_lt hlo.1 hlo.2,
    show (0#24) = BitVec.ofInt 24 0 from rfl, append_ofInt]
  congr 1
  simp only [Int.zero_emod]
  ring

theorem Holds.pp23 (h : Holds u i) (j : MultiplyInput) :
    u.pp23 j = BitVec.ofInt 128 (2 ^ 34 * v02 i + 2 ^ 48 * v20 i) := by
  have hlo := v02_bounds i
  have hhi := v20_bounds i
  rw [Mult.pp23, h.append02, h.append20, show (0#34) = BitVec.ofInt 34 0 from rfl,
    show (0#48) = BitVec.ofInt 48 0 from rfl, append_ofInt, append_ofInt,
    signExtend_ofInt (by decide) (by omega) (by omega), ← BitVec.ofInt_add,
    signExtend_ofInt (by decide) (by omega) (by omega)]
  congr 1
  simp

/-- The vectors that the other slices add. -/
theorem Holds.sum (h : Holds u i) (j : MultiplyInput) :
    u.pp0 j + u.pp1 j + u.pp23 j =
      Multiply.operand i.isSigned i.data1 * Multiply.operand i.isSigned i.data2 + addend i := by
  rw [h.pp0, h.pp1, h.pp23, operand_eq_ofInt, operand_eq_ofInt, ← BitVec.ofInt_mul,
    ← BitVec.ofInt_add, ← BitVec.ofInt_add]
  have hadd : addend i = BitVec.ofInt 128 ((addend i).toNat : Int) := by
    rw [BitVec.ofInt_natCast, BitVec.ofNat_toNat, BitVec.setWidth_eq]
  rw [hadd, ← BitVec.ofInt_add, ← sum_pairs i]
  congr 1
  ring

/-! ## The sum -/

theorem add_parts {a b c d e f lo : Nat} (ha : a < 2 ^ 24) (hlo : lo = b + d) :
    2 ^ 32 * ((c + e + f + lo / 2 ^ 8) % 2 ^ 96) + (2 ^ 24 * (lo % 2 ^ 8) + a) =
      (a + 2 ^ 24 * b + 2 ^ 32 * c + (2 ^ 24 * d + 2 ^ 32 * e) + 2 ^ 32 * f) % 2 ^ 128 := by
  have hhigh : a + 2 ^ 24 * b + 2 ^ 32 * c + (2 ^ 24 * d + 2 ^ 32 * e) + 2 ^ 32 * f =
      2 ^ 32 * (c + e + f + lo / 2 ^ 8) + (2 ^ 24 * (lo % 2 ^ 8) + a) := by omega
  have hlt : 2 ^ 24 * (lo % 2 ^ 8) + a < 2 ^ 32 := by omega
  rw [hhigh]
  generalize c + e + f + lo / 2 ^ 8 = h at *
  omega

theorem toNat_eq_parts (x : BitVec 128) :
    x.toNat = (x.extractLsb' 0 24).toNat + 2 ^ 24 * (x.extractLsb' 24 8).toNat +
      2 ^ 32 * (x.extractLsb' 32 96).toNat := by
  have hx := x.isLt
  simp only [BitVec.extractLsb'_toNat, Nat.shiftRight_eq_div_pow]
  omega

theorem toNat_of_low_zero (x : BitVec 128) (hr : x.extractLsb' 0 32 = 0) :
    x.toNat = 2 ^ 32 * (x.extractLsb' 32 96).toNat := by
  have hx := x.isLt
  have hlow := congrArg BitVec.toNat hr
  simp only [BitVec.extractLsb'_toNat, Nat.shiftRight_eq_div_pow] at hlow ⊢
  change x.toNat / 2 ^ 0 % 2 ^ 32 = 0 at hlow
  omega

/-- A sum of three numbers of which the second has no low 24 bits and the third no low 32 bits: the
carry out of the low byte goes into the second sum. -/
theorem add_in_parts (p q r : BitVec 128) (hq : q.extractLsb' 0 24 = 0)
    (hr : r.extractLsb' 0 32 = 0) {lo : BitVec 9}
    (hlo : lo = (p.extractLsb' 24 8).setWidth 9 + (q.extractLsb' 24 8).setWidth 9) :
    (p.extractLsb' 32 96 + q.extractLsb' 32 96 + r.extractLsb' 32 96 +
        (BitVec.ofBool (lo.getLsbD 8)).setWidth 96) ++
      (lo.extractLsb' 0 8 ++ p.extractLsb' 0 24) = p + q + r := by
  apply BitVec.eq_of_toNat_eq
  have hcarry : ((BitVec.ofBool (lo.getLsbD 8)).setWidth 96).toNat = lo.toNat / 2 ^ 8 := by
    rw [Bits.getLsbD_eq_div]
    have hlt := lo.isLt
    by_cases h : lo.toNat / 2 ^ 8 % 2 = 1
    · rw [decide_eq_true h]
      exact (show (1 : Nat) = _ by omega)
    · rw [decide_eq_false h]
      exact (show (0 : Nat) = _ by omega)
  have hlow : lo.toNat = (p.extractLsb' 24 8).toNat + (q.extractLsb' 24 8).toNat := by
    have hp := (p.extractLsb' 24 8).isLt
    have hq := (q.extractLsb' 24 8).isLt
    rw [hlo, BitVec.toNat_add, BitVec.toNat_setWidth, BitVec.toNat_setWidth]
    omega
  have hq0 : (q.extractLsb' 0 24).toNat = 0 := congrArg BitVec.toNat hq
  have hsum := add_parts (c := (p.extractLsb' 32 96).toNat) (e := (q.extractLsb' 32 96).toNat)
    (f := (r.extractLsb' 32 96).toNat) (p.extractLsb' 0 24).isLt hlow
  have hlo8 : (lo.extractLsb' 0 8).toNat = lo.toNat % 2 ^ 8 := by
    rw [BitVec.extractLsb'_toNat, Nat.shiftRight_zero]
  rw [Bits.toNat_append, Bits.toNat_append, hlo8]
  simp only [BitVec.toNat_add, hcarry, Nat.mod_add_mod]
  rw [mul_comm _ (2 ^ (8 + 24)), mul_comm _ (2 ^ 24), hsum, toNat_eq_parts p, toNat_eq_parts q,
    toNat_of_low_zero r hr, hq0, zero_add]

variable (u : Mult D) (j k : MultiplyInput)

theorem extract_append (x : BitVec 128) (n : Nat) :
    x.extractLsb' (n + 18) 30 ++ x.extractLsb' n 18 = x.extractLsb' n 48 :=
  BitVec.extractLsb'_append_extractLsb'_eq_extractLsb' rfl

theorem outS0_p :
    (u.outS0 j).p =
      sum ((u.pp0 j).extractLsb' 32 48) ((u.pp1 j).extractLsb' 32 48) false false := by
  rw [← extract_append, outS0, D.out_eq]
  rfl

theorem outS0_carryout :
    (u.outS0 j).carryout =
      carry ((u.pp0 j).extractLsb' 32 48) ((u.pp1 j).extractLsb' 32 48) false := by
  rw [← extract_append, outS0, D.out_eq]
  rfl

variable {u}

theorem outS1_step (hv : u.valid1 = true) :
    ((u.step j).outS1 k).p =
      sum ((u.pp0 j).extractLsb' 80 48) ((u.pp1 j).extractLsb' 80 48) (u.outS0 j).carryout
        false := by
  rw [← extract_append, outS1, first_p]
  simp only [step]
  rw [D.next_eq]
  simp only [Regs.next, first, inS1, hv]
  rfl

/-- What `p0` has after an edge. -/
theorem outP0_step (hv : u.valid1 = true) :
    let p := sum (u.outS0 j).p ((u.pp23 j).extractLsb' 32 48) ((u.sumlo j).getLsbD 8) u.rnot1
    (u.step j).outP0 k =
      ⟨p, carry (u.outS0 j).p ((u.pp23 j).extractLsb' 32 48) ((u.sumlo j).getLsbD 8),
        allZero 0x00007fffffff p, allOne 0x00007fffffff p⟩ := by
  rw [← extract_append, outP0, D.out_eq]
  simp only [step]
  rw [D.next_eq]
  simp only [Regs.out, Regs.next, genericsP0, inP0, hv]
  rfl

theorem outP1_step (hv : u.valid1 = true) :
    let p := sum ((u.step j).outS1 k).p ((u.pp23 j).extractLsb' 80 48)
      ((u.step j).outP0 k).carryout u.rnot1
    ((u.step j).outP1 k).p = p ∧ ((u.step j).outP1 k).patterndetect = allZero 0 p ∧
      ((u.step j).outP1 k).patternbdetect = allOne 0 p := by
  rw [← extract_append, outP1, D.out_eq]
  have hregs : D.regs (u.step j).p1 = (D.regs u.p1).next genericsP1 (u.inP1 j) :=
    D.next_eq genericsP1 u.p1 (u.inP1 j)
  rw [hregs]
  simp only [Regs.out, Regs.next, genericsP1, inP1, hv]
  exact ⟨rfl, rfl, rfl⟩

/-- The low bits of what comes out. -/
theorem productLo_step (hv : u.valid1 = true) :
    (u.step j).productLo =
      let lo := (u.sumlo j).extractLsb' 0 8 ++ (u.pp0 j).extractLsb' 0 24
      if u.rnot1 then ~~~lo else lo := by
  simp only [step, hv, if_true]
  cases u.rnot1 <;> rfl

/-- The sum of the three vectors comes out, inverted for a subtraction. -/
theorem product_step (hv : u.valid1 = true) (hq : (u.pp1 j).extractLsb' 0 24 = 0)
    (hr : (u.pp23 j).extractLsb' 0 32 = 0) :
    (u.step j).product k =
      let s := u.pp0 j + u.pp1 j + u.pp23 j
      if u.rnot1 then ~~~s else s := by
  have hsum := @add_in_parts _ _ _ hq hr (u.sumlo j) rfl
  have hsplit (x : BitVec 128) : x.extractLsb' 80 48 ++ x.extractLsb' 32 48 = x.extractLsb' 32 96 :=
    BitVec.extractLsb'_append_extractLsb'_eq_extractLsb' rfl
  have hfirst : ((u.step j).outS1 k).p ++ (u.outS0 j).p =
      (u.pp0 j).extractLsb' 32 96 + (u.pp1 j).extractLsb' 32 96 := by
    rw [outS1_step j k hv, outS0_carryout, outS0_p, append_sum, hsplit, hsplit]
    exact BitVec.add_zero _
  have hsecond : sum ((u.step j).outS1 k).p ((u.pp23 j).extractLsb' 80 48)
        ((u.step j).outP0 k).carryout false ++
      sum (u.outS0 j).p ((u.pp23 j).extractLsb' 32 48) ((u.sumlo j).getLsbD 8) false =
      (u.pp0 j).extractLsb' 32 96 + (u.pp1 j).extractLsb' 32 96 + (u.pp23 j).extractLsb' 32 96 +
        (BitVec.ofBool ((u.sumlo j).getLsbD 8)).setWidth 96 := by
    rw [outP0_step j k hv, append_sum, hfirst, hsplit]
  rw [← hsum, ← hsecond, product, (outP1_step j k hv).1, outP0_step j k hv, productLo_step j hv,
    sum_invert, sum_invert _ _ _ u.rnot1]
  cases u.rnot1 with
  | false => exact (BitVec.append_assoc ..).symm
  | true =>
    simp only [if_true, ← BitVec.not_append]
    exact congrArg (~~~ ·) (BitVec.append_assoc ..).symm

/-! ## The overflow flag -/

/-- The two detectors see bits 127 to 63. -/
theorem overflows_append (p1 p0 : BitVec 48) (lo : BitVec 32) :
    Multiply.overflows (p1 ++ (p0 ++ lo)) =
      !((allZero 0 p1 && allZero 0x00007fffffff p0) ||
        (allOne 0 p1 && allOne 0x00007fffffff p0)) := by
  have hbits : (p1 ++ (p0 ++ lo)).extractLsb' 63 65 = p1 ++ p0.extractLsb' 31 17 := by
    apply BitVec.eq_of_getLsbD_eq
    intro n hn
    simp only [BitVec.getLsbD_extractLsb', BitVec.getLsbD_append, decide_eq_true hn, Bool.true_and]
    by_cases hlt : n < 17
    · rw [if_pos (by omega), if_neg (by omega), if_pos hlt, decide_eq_true hlt, Bool.true_and]
      congr 1
      omega
    · rw [if_neg (by omega), if_neg hlt]
      congr 1
      omega
  have hzero : p1 ++ p0.extractLsb' 31 17 = 0 ↔
      (allZero 0 p1 && allZero 0x00007fffffff p0) = true := by
    rw [append_eq_zero_iff, Bool.and_eq_true, allZero_iff (k := 0) (n := 48) (by decide) (by simp),
      allZero_iff (k := 31) (n := 17) (by decide) (by decide), BitVec.extractLsb'_eq_self]
  have hone : p1 ++ p0.extractLsb' 31 17 = BitVec.allOnes 65 ↔
      (allOne 0 p1 && allOne 0x00007fffffff p0) = true := by
    rw [append_eq_allOnes_iff, Bool.and_eq_true,
      allOne_iff (k := 0) (n := 48) (by decide) (by simp),
      allOne_iff (k := 31) (n := 17) (by decide) (by decide), BitVec.extractLsb'_eq_self]
  rw [Multiply.overflows, hbits, Bool.not_or]
  congr 1
  · rw [Bool.eq_iff_iff, Bool.not_eq_true', ← Bool.not_eq_true, ← hzero, bne_iff_ne]
  · rw [Bool.eq_iff_iff, Bool.not_eq_true', ← Bool.not_eq_true, ← hone, bne_iff_ne]

end Mult

end Microwatt.Xilinx
