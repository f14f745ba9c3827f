import Microwatt.Multiply32s
import Microwatt.Lib.Bits
import Microwatt.Lib.Dsp48

/-!
# The short multiplier in DSP slices

The architecture of `xilinx-mult-32s.vhdl`.  The operands are cut into 23 and 10 bits and into 17
and 16 bits.  Two slices without registers multiply the low piece of `data1`; two with a register at
the product multiply the high piece, and add what the others had.
-/

namespace Microwatt.Xilinx

open Dsp48

variable {D : Slice}

structure Mult32s (D : Slice) where
  m00 : D.State
  m01 : D.State
  m10 : D.State
  m11 : D.State
  /-- `m_out.valid`. -/
  valid : Bool
  productLo : BitVec 23

namespace Mult32s

variable (i : MultiplyInput)

/-- `data1`, extended by its sign if the operation is signed. -/
def data1 : BitVec 53 :=
  fill 21 (i.isSigned && i.data1.getLsbD 31) ++ i.data1.extractLsb' 0 32

/-- `data2`, extended by its sign if the operation is signed. -/
def data2 : BitVec 35 :=
  fill 3 (i.isSigned && i.data2.getLsbD 31) ++ i.data2.extractLsb' 0 32

variable (u : Mult32s D) (stall : Bool)

/-- `clocken`. -/
def clocken : Bool := i.valid && !stall

def in00 : PortIn :=
  { PortIn.zero with
    a := 0#7 ++ (data1 i).extractLsb' 0 23
    b := 0#1 ++ (data2 i).extractLsb' 0 17
    opmode := .cPlusM }

def m00P : BitVec 48 := (D.out Generics.none u.m00 (in00 i)).p

def in01 : PortIn :=
  { PortIn.zero with
    a := 0#7 ++ (data1 i).extractLsb' 0 23
    b := (data2 i).extractLsb' 17 18
    pcin := u.m00P i
    opmode := .shiftPlusM }

def m01P : BitVec 48 := (D.out Generics.none u.m01 (u.in01 i)).p

def generics10 : Generics :=
  { Generics.none with creg := true, mreg := true, mask := 0xfffffffe00ff }

def in10 : PortIn :=
  { PortIn.zero with
    a := (data1 i).extractLsb' 23 30
    b := 0#1 ++ (data2 i).extractLsb' 0 17
    c := ((u.m01P i).extractLsb' 6 33).signExtend 48
    opmode := .cPlusM
    cec := clocken i stall
    cem := clocken i stall }

/-- `m10_p`, `p0_pat` and `p0_patb`. -/
def out10 : PortOut := D.out generics10 u.m10 (u.in10 i stall)

def generics11 : Generics :=
  { Generics.none with mreg := true, mask := 0xfffffc000000 }

def in11 : PortIn :=
  { PortIn.zero with
    a := (data1 i).extractLsb' 23 30
    b := (data2 i).extractLsb' 17 18
    pcin := (u.out10 i stall).p
    opmode := .shiftPlusM
    cem := clocken i stall }

/-- `m11_p`, `p1_pat` and `p1_patb`. -/
def out11 : PortOut := D.out generics11 u.m11 (u.in11 i stall)

/-- `m_out`, of which bits 127 to 64 of the result are not driven. -/
def out : Bool × BitVec 64 × Bool :=
  (u.valid,
    (u.out11 i stall).p.extractLsb' 0 24 ++ ((u.out10 i stall).p.extractLsb' 0 17 ++ u.productLo),
    !(((u.out10 i stall).patterndetect && (u.out11 i stall).patterndetect) ||
      ((u.out10 i stall).patternbdetect && (u.out11 i stall).patternbdetect)))

/-- A rising edge. -/
def step : Mult32s D where
  m00 := D.next Generics.none u.m00 (in00 i)
  m01 := D.next Generics.none u.m01 (u.in01 i)
  m10 := D.next generics10 u.m10 (u.in10 i stall)
  m11 := D.next generics11 u.m11 (u.in11 i stall)
  valid := if !stall then i.valid else u.valid
  productLo :=
    if !stall then (u.m01P i).extractLsb' 0 6 ++ (u.m00P i).extractLsb' 0 17 else u.productLo

/-! ## The pieces of the operands -/

/-- The low and the high piece of `data1`. -/
def x0 : Int := (i.data1.extractLsb' 0 23).toNat
def x1 : Int := (i.data1.extractLsb' 23 9).toNat - 2 ^ 9 * (i.isSigned && i.data1.getLsbD 31).toNat

/-- The low and the high piece of `data2`. -/
def y0 : Int := (i.data2.extractLsb' 0 17).toNat
def y1 : Int :=
    (i.data2.extractLsb' 17 15).toNat - 2 ^ 15 * (i.isSigned && i.data2.getLsbD 31).toNat

theorem extractLsb'_extractLsb' {w k n : Nat} (x : BitVec w) (j m : Nat) (h : j + m ≤ n) :
    (x.extractLsb' k n).extractLsb' j m = x.extractLsb' (k + j) m := by
  apply BitVec.eq_of_getLsbD_eq
  intro l hl
  simp only [BitVec.getLsbD_extractLsb', decide_eq_true hl, Bool.true_and,
    decide_eq_true (by omega : j + l < n), add_assoc]

theorem extractLsb'_append_low {m n : Nat} (x : BitVec m) (y : BitVec n) (j k : Nat)
    (h : j + k ≤ n) : (x ++ y).extractLsb' j k = y.extractLsb' j k := by
  apply BitVec.eq_of_getLsbD_eq
  intro l hl
  simp only [BitVec.getLsbD_extractLsb', BitVec.getLsbD_append, decide_eq_true hl, Bool.true_and]
  rw [if_pos (by omega)]

theorem data1_low : (data1 i).extractLsb' 0 23 = i.data1.extractLsb' 0 23 := by
  rw [data1, extractLsb'_append_low _ _ _ _ (by decide), extractLsb'_extractLsb' _ _ _ (by decide)]

theorem data2_low : (data2 i).extractLsb' 0 17 = i.data2.extractLsb' 0 17 := by
  rw [data2, extractLsb'_append_low _ _ _ _ (by decide), extractLsb'_extractLsb' _ _ _ (by decide)]

theorem toInt_low1 : ((0#7 ++ (data1 i).extractLsb' 0 23).extractLsb' 0 25).toInt = x0 i := by
  have h := @toInt_extractLsb'_fill_append 7 23 false (i.data1.extractLsb' 0 23) 0 23 2 rfl
    (by decide) (by decide)
  rw [BitVec.extractLsb'_eq_self, Bool.toNat_false, Nat.cast_zero, mul_zero, sub_zero] at h
  rw [data1_low]
  exact h

theorem toInt_high1 : (((data1 i).extractLsb' 23 30).extractLsb' 0 25).toInt = x1 i := by
  rw [extractLsb'_extractLsb' _ _ _ (by decide), x1]
  have h := @toInt_extractLsb'_fill_append 21 32 (i.isSigned && i.data1.getLsbD 31)
    (i.data1.extractLsb' 0 32) 23 9 16 rfl (by decide) (by decide)
  rw [extractLsb'_extractLsb' _ _ _ (by decide)] at h
  exact h

theorem toInt_low2 : (0#1 ++ (data2 i).extractLsb' 0 17).toInt = y0 i := by
  have h := @toInt_fill_append 1 17 (by decide) false (i.data2.extractLsb' 0 17)
  rw [Bool.toNat_false, Nat.cast_zero, mul_zero, sub_zero] at h
  rw [data2_low]
  exact h

theorem toInt_high2 : ((data2 i).extractLsb' 17 18).toInt = y1 i := by
  have h := @toInt_extractLsb'_fill_append 3 32 (i.isSigned && i.data2.getLsbD 31)
    (i.data2.extractLsb' 0 32) 17 15 3 rfl (by decide) (by decide)
  rw [extractLsb'_extractLsb' _ _ _ (by decide)] at h
  exact h

theorem x0_bounds : 0 ≤ x0 i ∧ x0 i < 2 ^ 23 := by
  have := (i.data1.extractLsb' 0 23).isLt
  exact ⟨Int.natCast_nonneg _, by unfold x0; omega⟩

theorem y0_bounds : 0 ≤ y0 i ∧ y0 i < 2 ^ 17 := by
  have := (i.data2.extractLsb' 0 17).isLt
  exact ⟨Int.natCast_nonneg _, by unfold y0; omega⟩

/-- An operand, as an integer. -/
def operandValue (isSigned : Bool) (data : BitVec 64) : Int :=
  (data.extractLsb' 0 32).toNat - 2 ^ 32 * (isSigned && data.getLsbD 31).toNat

theorem operand_toInt (isSigned : Bool) (data : BitVec 64) :
    (Multiply32s.operand isSigned data).toInt = operandValue isSigned data := by
  have hfill (b : Bool) : BitVec.ofBool b = fill 1 b := by cases b <;> rfl
  rw [Multiply32s.operand, hfill, toInt_fill_append (by decide), operandValue]

theorem operandValue_data1 : operandValue i.isSigned i.data1 = x0 i + 2 ^ 23 * x1 i := by
  simp only [operandValue, x0, x1, BitVec.extractLsb'_toNat, Nat.shiftRight_eq_div_pow]
  omega

theorem operandValue_data2 : operandValue i.isSigned i.data2 = y0 i + 2 ^ 17 * y1 i := by
  simp only [operandValue, y0, y1, BitVec.extractLsb'_toNat, Nat.shiftRight_eq_div_pow]
  omega

theorem operandValue_unsigned (data : BitVec 64) :
    0 ≤ operandValue false data ∧ operandValue false data ≤ 2 ^ 32 - 1 := by
  have := (data.extractLsb' 0 32).isLt
  simp only [operandValue, Bool.false_and, Bool.toNat_false]
  omega

theorem operandValue_signed (data : BitVec 64) :
    -2 ^ 31 ≤ operandValue true data ∧ operandValue true data ≤ 2 ^ 31 - 1 := by
  have hlt := (data.extractLsb' 0 32).isLt
  have hmsb : data.getLsbD 31 = decide (2 ^ 31 ≤ (data.extractLsb' 0 32).toNat) := by
    rw [BitVec.extractLsb'_toNat, Nat.shiftRight_zero, Bits.getLsbD_eq_div]
    congr 1
    apply propext
    omega
  rw [operandValue, hmsb, Bool.true_and]
  by_cases h : 2 ^ 31 ≤ (data.extractLsb' 0 32).toNat
  · rw [decide_eq_true h, Bool.toNat_true]
    omega
  · rw [decide_eq_false h, Bool.toNat_false]
    omega

theorem operandValue_bounds (isSigned : Bool) (data : BitVec 64) :
    -2 ^ 31 ≤ operandValue isSigned data ∧ operandValue isSigned data ≤ 2 ^ 32 - 1 := by
  cases isSigned with
  | false =>
    have := operandValue_unsigned data
    omega
  | true =>
    have := operandValue_signed data
    omega

/-- The product. -/
def value : Int := operandValue i.isSigned i.data1 * operandValue i.isSigned i.data2

/-- No unsigned product has ones in all of bits 63 to 31. -/
theorem value_bounds : -2 ^ 62 ≤ value i ∧ value i < 2 ^ 64 - 2 ^ 31 := by
  unfold value
  cases i.isSigned with
  | false =>
    have hx := operandValue_unsigned i.data1
    have hy := operandValue_unsigned i.data2
    constructor <;> nlinarith
  | true =>
    have hx := operandValue_signed i.data1
    have hy := operandValue_signed i.data2
    constructor <;> nlinarith

theorem product_eq : Multiply32s.product i = BitVec.ofInt 66 (value i) := by
  rw [Multiply32s.product, signExtend_eq_ofInt, signExtend_eq_ofInt, operand_toInt, operand_toInt,
    ← BitVec.ofInt_mul, value]

/-! ## The slices without registers -/

/-- The product of the low piece of `data1`. -/
def low : Int := x0 i * y0 i + 2 ^ 17 * (x0 i * y1 i)

theorem low_eq : low i = x0 i * operandValue i.isSigned i.data2 := by
  rw [operandValue_data2, low]
  ring

theorem low_bounds : -2 ^ 54 ≤ low i ∧ low i < 2 ^ 55 := by
  have hx := x0_bounds i
  have hy := operandValue_bounds i.isSigned i.data2
  rw [low_eq]
  constructor <;> nlinarith

/-- The product of the low pieces fits in a slice. -/
theorem low_product_bounds : -2 ^ 47 ≤ x0 i * y0 i ∧ x0 i * y0 i < 2 ^ 47 := by
  have hx := x0_bounds i
  have hy := y0_bounds i
  constructor <;> nlinarith

theorem m00P_eq : u.m00P i = BitVec.ofInt 48 (x0 i * y0 i) := by
  have hsum : u.m00P i = 0#48 + mult (in00 i).a (in00 i).b + 0#48 := by
    rw [m00P, D.out_eq]
    rfl
  rw [hsum, BitVec.add_zero, BitVec.zero_add, mult_eq]
  exact congrArg (BitVec.ofInt 48) (congrArg₂ (· * ·) (toInt_low1 i) (toInt_low2 i))

theorem m01P_eq_add : u.m01P i = (u.m00P i).sshiftRight 17 + BitVec.ofInt 48 (x0 i * y1 i) := by
  have hsum : u.m01P i =
      (u.m00P i).sshiftRight 17 + mult (u.in01 i).a (u.in01 i).b + 0#48 := by
    rw [m01P, D.out_eq]
    rfl
  rw [hsum, BitVec.add_zero, mult_eq]
  exact congrArg (fun z => (u.m00P i).sshiftRight 17 + BitVec.ofInt 48 z)
    (congrArg₂ (· * ·) (toInt_low1 i) (toInt_high2 i))

theorem m01P_eq : u.m01P i = BitVec.ofInt 48 (low i / 2 ^ 17) := by
  have hb := low_product_bounds i
  rw [m01P_eq_add, m00P_eq, sshiftRight_ofInt (w := 48) (by decide) 17 hb.1 hb.2,
    ← BitVec.ofInt_add, low]
  congr 1
  omega

/-- The low bits of the result. -/
theorem low_append :
    (u.m01P i).extractLsb' 0 6 ++ (u.m00P i).extractLsb' 0 17 = BitVec.ofInt 23 (low i) := by
  have hb := low_product_bounds i
  rw [m01P_eq_add, m00P_eq, cascade_append (n := 6) hb.1 hb.2 (by decide), low]

/-- What is left of the low product for the other slices. -/
theorem c10_eq : (u.in10 i stall).c = BitVec.ofInt 48 (low i / 2 ^ 23) := by
  have hb := low_bounds i
  change ((u.m01P i).extractLsb' 6 33).signExtend 48 = _
  rw [m01P_eq, extractLsb'_ofInt (by decide), Int.ediv_ediv_of_nonneg (by decide),
    signExtend_ofInt (by decide)]
  · rfl
  · omega
  · omega

/-! ## The slices with registers -/

variable {u} {i}

/-- The registers have an operation. -/
structure Holds (u : Mult32s D) (i : MultiplyInput) : Prop where
  c : (D.regs u.m10).c = BitVec.ofInt 48 (low i / 2 ^ 23)
  m : (D.regs u.m10).m = BitVec.ofInt 48 (x1 i * y0 i)
  m' : (D.regs u.m11).m = BitVec.ofInt 48 (x1 i * y1 i)
  lo : u.productLo = BitVec.ofInt 23 (low i)

theorem holds_step (u : Mult32s D) {i : MultiplyInput} (hv : i.valid = true) :
    Holds (u.step i false) i := by
  have hclocken : clocken i false = true := by rw [clocken, hv]; rfl
  have hregs10 : D.regs (u.step i false).m10 = (D.regs u.m10).next generics10 (u.in10 i false) :=
    D.next_eq ..
  have hregs11 : D.regs (u.step i false).m11 = (D.regs u.m11).next generics11 (u.in11 i false) :=
    D.next_eq ..
  constructor
  · rw [← c10_eq i u false]
    simp only [hregs10, Regs.next, generics10, in10, hclocken]
    rfl
  · have hm : (D.regs (u.step i false).m10).m = mult (u.in10 i false).a (u.in10 i false).b := by
      simp only [hregs10, Regs.next, generics10, in10, hclocken]
      rfl
    rw [hm, mult_eq]
    exact congrArg (BitVec.ofInt 48) (congrArg₂ (· * ·) (toInt_high1 i) (toInt_low2 i))
  · have hm : (D.regs (u.step i false).m11).m = mult (u.in11 i false).a (u.in11 i false).b := by
      simp only [hregs11, Regs.next, generics11, in11, hclocken]
      rfl
    rw [hm, mult_eq]
    exact congrArg (BitVec.ofInt 48) (congrArg₂ (· * ·) (toInt_high1 i) (toInt_high2 i))
  · exact low_append i u

/-- A stall keeps the operation. -/
theorem Holds.step_stall (h : Holds u i) (j : MultiplyInput) : Holds (u.step j true) i := by
  have hclocken : clocken j true = false := Bool.and_false _
  have hregs10 : D.regs (u.step j true).m10 = (D.regs u.m10).next generics10 (u.in10 j true) :=
    D.next_eq ..
  have hregs11 : D.regs (u.step j true).m11 = (D.regs u.m11).next generics11 (u.in11 j true) :=
    D.next_eq ..
  constructor
  · rw [← h.c]
    simp only [hregs10, Regs.next, generics10, in10, hclocken]
    rfl
  · rw [← h.m]
    simp only [hregs10, Regs.next, generics10, in10, hclocken]
    rfl
  · rw [← h.m']
    simp only [hregs11, Regs.next, generics11, in11, hclocken]
    rfl
  · exact h.lo

/-- What the first of them puts out. -/
def sum10 (i : MultiplyInput) : Int := low i / 2 ^ 23 + x1 i * y0 i

theorem Holds.p10 (h : Holds u i) (j : MultiplyInput) :
    (u.out10 j stall).p = BitVec.ofInt 48 (sum10 i) := by
  have hsum : (u.out10 j stall).p = (D.regs u.m10).c + (D.regs u.m10).m + 0#48 := by
    rw [out10, D.out_eq]
    rfl
  rw [hsum, BitVec.add_zero, h.c, h.m, ← BitVec.ofInt_add, sum10]

theorem Holds.p11 (h : Holds u i) (j : MultiplyInput) :
    (u.out11 j stall).p =
      (u.out10 j stall).p.sshiftRight 17 + BitVec.ofInt 48 (x1 i * y1 i) := by
  have hsum : (u.out11 j stall).p =
      (u.out10 j stall).p.sshiftRight 17 + (D.regs u.m11).m + 0#48 := by
    rw [out11, D.out_eq]
    rfl
  rw [hsum, BitVec.add_zero, h.m']

theorem sum10_bounds (i : MultiplyInput) : -2 ^ 47 ≤ sum10 i ∧ sum10 i < 2 ^ 47 := by
  have hlow := low_bounds i
  have hx0 := x0_bounds i
  have hx := operandValue_bounds i.isSigned i.data1
  have hy := y0_bounds i
  rw [operandValue_data1] at hx
  have hx1 : -2 ^ 9 ≤ x1 i ∧ x1 i < 2 ^ 9 := by omega
  have hm : -2 ^ 26 ≤ x1 i * y0 i ∧ x1 i * y0 i ≤ 2 ^ 26 := by constructor <;> nlinarith
  unfold sum10
  omega

/-- The two sums, put together, are the high bits of the product. -/
theorem Holds.append (h : Holds u i) (j : MultiplyInput) {n : Nat} (hn : n ≤ 48) :
    (u.out11 j stall).p.extractLsb' 0 n ++ (u.out10 j stall).p.extractLsb' 0 17 =
      BitVec.ofInt (n + 17) (value i / 2 ^ 23) := by
  have hb := sum10_bounds i
  rw [h.p11, h.p10, cascade_append hb.1 hb.2 hn]
  congr 1
  have hvalue : value i = low i + 2 ^ 23 * (x1 i * y0 i + 2 ^ 17 * (x1 i * y1 i)) := by
    rw [value, operandValue_data1, operandValue_data2, low]
    ring
  rw [hvalue, sum10]
  omega

/-! ## What is shown -/

/-- The product is shown as the portable architecture shows it. -/
theorem Holds.result (h : Holds u i) (j : MultiplyInput) :
    (u.out j stall).2.1 = (Multiply32s.product i).extractLsb' 0 64 := by
  have hvalue : value i % 2 ^ 23 = low i % 2 ^ 23 := by
    rw [value, operandValue_data1, low_eq, add_mul, mul_assoc, Int.add_mul_emod_self_left]
  have happend : (u.out j stall).2.1 =
      ((u.out11 j stall).p.extractLsb' 0 24 ++ (u.out10 j stall).p.extractLsb' 0 17) ++
        u.productLo :=
    BitVec.append_assoc.symm
  rw [happend, h.append stall j (by decide), h.lo, append_ofInt, product_eq,
    extractLsb'_ofInt (by decide), ← hvalue, Int.mul_ediv_add_emod, pow_zero, Int.ediv_one]

/-- The detectors of the two slices see bits 65 to 31 of the product. -/
theorem Holds.detected (h : Holds u i) (j : MultiplyInput) :
    (u.out11 j stall).p.extractLsb' 0 26 ++ (u.out10 j stall).p.extractLsb' 8 9 =
      BitVec.ofInt 35 (value i / 2 ^ 31) := by
  have happend := extractLsb'_append ((u.out11 j stall).p.extractLsb' 0 26)
    ((u.out10 j stall).p.extractLsb' 0 17) 8 9 rfl
  rw [extractLsb'_extractLsb' _ _ _ (by decide)] at happend
  rw [← happend, h.append stall j (by decide), extractLsb'_ofInt (by decide),
    Int.ediv_ediv_of_nonneg (by decide)]
  rfl

/-- Bits 65 and 64 make no difference, because no product is near to `2 ^ 64`. -/
theorem Holds.overflow (h : Holds u i) (j : MultiplyInput) {v : Multiply32s}
    (hv : v.data = Multiply32s.product i) : (u.out j stall).2.2 = v.ov := by
  have hb := value_bounds i
  have hd : v.d.extractLsb' 31 33 = BitVec.ofInt 33 (value i / 2 ^ 31) := by
    rw [Multiply32s.d, hv, product_eq, extractLsb'_ofInt (by decide), pow_zero, Int.ediv_one,
      extractLsb'_ofInt (by decide)]
  have hzero : ((u.out10 j stall).patterndetect && (u.out11 j stall).patterndetect) = true ↔
      v.d.extractLsb' 31 33 = 0 := by
    have h10 : (u.out10 j stall).patterndetect = allZero 0xfffffffe00ff (u.out10 j stall).p := by
      rw [out10, D.out_eq]
      rfl
    have h11 : (u.out11 j stall).patterndetect = allZero 0xfffffc000000 (u.out11 j stall).p := by
      rw [out11, D.out_eq]
      rfl
    rw [Bool.and_eq_true, h10, h11, allZero_iff (k := 8) (n := 9) (by decide) (by decide),
      allZero_iff (k := 0) (n := 26) (by decide) (by decide), and_comm, ← append_eq_zero_iff,
      h.detected, hd, show (0 : BitVec (26 + 9)) = BitVec.ofInt 35 0 from rfl,
      show (0 : BitVec 33) = BitVec.ofInt 33 0 from rfl,
      ofInt_eq_ofInt_iff (abs_lt.mpr (by constructor <;> omega)),
      ofInt_eq_ofInt_iff (abs_lt.mpr (by constructor <;> omega))]
  have hone : ((u.out10 j stall).patternbdetect && (u.out11 j stall).patternbdetect) = true ↔
      v.d.extractLsb' 31 33 = BitVec.allOnes 33 := by
    have h10 : (u.out10 j stall).patternbdetect = allOne 0xfffffffe00ff (u.out10 j stall).p := by
      rw [out10, D.out_eq]
      rfl
    have h11 : (u.out11 j stall).patternbdetect = allOne 0xfffffc000000 (u.out11 j stall).p := by
      rw [out11, D.out_eq]
      rfl
    rw [Bool.and_eq_true, h10, h11, allOne_iff (k := 8) (n := 9) (by decide) (by decide),
      allOne_iff (k := 0) (n := 26) (by decide) (by decide), and_comm, ← append_eq_allOnes_iff,
      h.detected, hd, allOnes_eq_ofInt, allOnes_eq_ofInt,
      ofInt_eq_ofInt_iff (abs_lt.mpr (by constructor <;> omega)),
      ofInt_eq_ofInt_iff (abs_lt.mpr (by constructor <;> omega))]
  change (!(_ || _)) = _
  rw [Multiply32s.ov, Bool.not_or]
  congr 1
  · rw [Bool.eq_iff_iff, Bool.not_eq_true', ← Bool.not_eq_true, hzero, bne_iff_ne]
  · rw [Bool.eq_iff_iff, Bool.not_eq_true', Bool.not_eq_true', ← Bool.not_eq_true, hone,
      beq_eq_false_iff_ne]

/-! ## Runs -/

/-- The two architectures after the same run. -/
structure Lockstep (u : Mult32s D) (v : Multiply32s) : Prop where
  valid : u.valid = v.valid
  holds : v.valid = true → ∃ i, v.data = Multiply32s.product i ∧ Holds u i

theorem Lockstep.step {v : Multiply32s} (h : Lockstep u v) (stall : Bool) (i : MultiplyInput) :
    Lockstep (u.step i stall) (v.step stall i) := by
  cases stall with
  | false => exact ⟨rfl, fun hvalid => ⟨i, rfl, holds_step u hvalid⟩⟩
  | true =>
    refine ⟨h.valid, fun hvalid => ?_⟩
    obtain ⟨q, hq, hholds⟩ := h.holds hvalid
    exact ⟨q, hq, hholds.step_stall i⟩

/-- What is shown is the same. -/
theorem Lockstep.out {v : Multiply32s} (h : Lockstep u v) (stall : Bool) (i : MultiplyInput) :
    (u.out i stall).1 = v.out.valid ∧
      (v.out.valid = true → (u.out i stall).2.1 = v.out.result.extractLsb' 0 64 ∧
        (u.out i stall).2.2 = v.out.overflow) := by
  refine ⟨h.valid, fun hvalid => ?_⟩
  obtain ⟨q, hq, hholds⟩ := h.holds hvalid
  refine ⟨?_, hholds.overflow stall i hq⟩
  rw [hholds.result stall i, ← hq, show v.out.result = 0#64 ++ v.d from rfl,
    extractLsb'_append_low _ _ _ _ (by decide), BitVec.extractLsb'_eq_self]
  rfl

end Mult32s

end Microwatt.Xilinx
