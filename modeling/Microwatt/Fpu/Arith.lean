import Microwatt.Fpu.Types
import Microwatt.Helpers

/-!
# The functions of the floating-point unit

The shifter, the decoding of operands, the packing of results and the rounding decision of
`fpu.vhdl`, and the bits of the FPSCR.
-/

namespace Microwatt.Fpu

/-! ## The FPSCR -/

def fpscrFx : Nat := 31
def fpscrFex : Nat := 30
def fpscrVx : Nat := 29
def fpscrOx : Nat := 28
def fpscrUx : Nat := 27
def fpscrZx : Nat := 26
def fpscrXx : Nat := 25
def fpscrVxsnan : Nat := 24
def fpscrVxisi : Nat := 23
def fpscrVxidi : Nat := 22
def fpscrVxzdz : Nat := 21
def fpscrVximz : Nat := 20
def fpscrVxvc : Nat := 19
def fpscrFr : Nat := 18
def fpscrFi : Nat := 17
def fpscrC : Nat := 16
def fpscrFl : Nat := 15
def fpscrFg : Nat := 14
def fpscrFe : Nat := 13
def fpscrFu : Nat := 12
def fpscrVxsoft : Nat := 10
def fpscrVxsqrt : Nat := 9
def fpscrVxcvi : Nat := 8
def fpscrVe : Nat := 7
def fpscrOe : Nat := 6
def fpscrUe : Nat := 5
def fpscrZe : Nat := 4
def fpscrXe : Nat := 3
def fpscrNi : Nat := 2
def fpscrRn : Nat := 0

/-- A vector with one bit assigned. -/
def setBit {w : Nat} (v : BitVec w) (n : Nat) (b : Bool) : BitVec w :=
  (v &&& ~~~(1#w <<< n)) ||| ((BitVec.ofBool b).setWidth w <<< n)

/-- A vector with the `n` bits from `k` assigned. -/
def setBits {w n : Nat} (v : BitVec w) (k : Nat) (x : BitVec n) : BitVec w :=
  (v &&& ~~~((BitVec.allOnes n).setWidth w <<< k)) ||| (x.setWidth w <<< k)

/-! ## Shifting and counting -/

/-- `shifter_64`: the upper 64 bits of the input, shifted left, or right if the shift is
negative. -/
def shifter64 (inp : BitVec 120) (shift : BitVec 7) : BitVec 64 :=
  let s1 : BitVec 95 :=
    match shift.extractLsb' 5 2 with
    | 0 => inp.extractLsb' 25 95
    | 1 => inp.extractLsb' 0 88 ++ 0#7
    | 2 => 0#64 ++ inp.extractLsb' 89 31
    | _ => 0#32 ++ inp.extractLsb' 57 63
  let s2 : BitVec 71 :=
    match shift.extractLsb' 3 2 with
    | 0 => s1.extractLsb' 24 71
    | 1 => s1.extractLsb' 16 71
    | 2 => s1.extractLsb' 8 71
    | _ => s1.extractLsb' 0 71
  match shift.extractLsb' 0 3 with
  | 0 => s2.extractLsb' 7 64
  | 1 => s2.extractLsb' 6 64
  | 2 => s2.extractLsb' 5 64
  | 3 => s2.extractLsb' 4 64
  | 4 => s2.extractLsb' 3 64
  | 5 => s2.extractLsb' 2 64
  | 6 => s2.extractLsb' 1 64
  | _ => s2.extractLsb' 0 64

/-- `count_left_zeroes`. -/
def countLeftZeroes (val : BitVec 64) : BitVec 6 :=
  Helpers.countRightZeroes val.reverse

/-! ## Operands and results -/

/-- `decode_dp`: the parts of a double, or of an integer if `isFp` is not set. -/
def decodeDp (fpr : BitVec 64) (isFp is32bint isSigned : Bool) : FpuReg :=
  let expNz := fpr.extractLsb' 52 11 != 0
  let expAo := fpr.extractLsb' 52 11 == BitVec.allOnes 11
  let fracNz := fpr.extractLsb' 0 52 != 0
  let lowNz := fpr.extractLsb' 0 32 != 0
  if isFp then
    { numClass :=
        match expAo, expNz, fracNz with
        | false, false, false => .zero
        | false, false, true => .finite
        | false, true, _ => .finite
        | true, true, false => .infinity
        | _, _, _ => .nan
      negative := fpr.getLsbD 63
      denorm := fracNz && !expNz
      naninf := expAo
      zeroexp := !expNz
      exponent := if !expNz then -1022 else ((fpr.extractLsb' 52 11).toNat : Int) - 1023
      mantissa := (BitVec.ofBool expNz ++ fpr.extractLsb' 0 52).setWidth 64 <<< (unitBit - 52) }
  else if is32bint then
    { numClass := if lowNz then .finite else .zero
      negative := fpr.getLsbD 31
      denorm := false
      naninf := false
      zeroexp := false
      exponent := 0
      mantissa :=
        (if isSigned && fpr.getLsbD 31 then BitVec.allOnes 32 else 0) ++ fpr.extractLsb' 0 32 }
  else
    { numClass := if fpr.getLsbD 63 || expNz || fracNz then .finite else .zero
      negative := fpr.getLsbD 63
      denorm := false
      naninf := false
      zeroexp := false
      exponent := 0
      mantissa := fpr }

/-- `resize(exp, 11)`: the sign and the low 10 bits. -/
def resizeExp (exp : Int) : BitVec 11 :=
  BitVec.ofBool (decide (exp < 0)) ++ BitVec.ofInt 10 exp

/-- `pack_dp`: a double from its parts. -/
def packDp (negative : Bool) (numClass : NumberClass) (exp : Int) (mantissa : BitVec 64)
    (singlePrec quietenNan : Bool) : BitVec 64 :=
  let low : BitVec 29 := if !singlePrec then mantissa.extractLsb' dpLsb 29 else 0
  let rest : BitVec 63 :=
    match numClass with
    | .zero => 0
    | .finite =>
      (if mantissa.getLsbD unitBit then resizeExp exp + 1023 else 0) ++
        (mantissa.extractLsb' spLsb 23 ++ low)
    | .infinity => BitVec.allOnes 11 ++ 0#52
    | .nan =>
      BitVec.allOnes 11 ++ ((BitVec.ofBool (quietenNan || mantissa.getLsbD qnanBit) ++
        mantissa.extractLsb' spLsb 22) ++ low)
  BitVec.ofBool negative ++ rest

/-- `fp_rounding`: whether to increment, and whether the result is inexact.  With `singlePrec`, `x`
has the bits below `spRbit` already. -/
def fpRounding (mantissa : BitVec 64) (x singlePrec : Bool) (rn : BitVec 3) (sign : Bool) :
    Bool × Bool :=
  let g := if !singlePrec then mantissa.getLsbD dpGbit else mantissa.getLsbD spGbit
  let rx :=
    if !singlePrec then mantissa.getLsbD dpRbit || x || mantissa.extractLsb' 0 dpRbit != 0
    else mantissa.getLsbD spRbit || x
  let lsb := if !singlePrec then mantissa.getLsbD dpLsb else mantissa.getLsbD spLsb
  let inexact := g || rx
  let inc :=
    match rn.extractLsb' 0 2 with
    | 0 => if (g && !rx) && !rn.getLsbD 2 then lsb else g
    | 1 => false
    | _ => rn.getLsbD 0 == sign && inexact
  (inc, inexact)

/-- `result_flags`: the FPRF of a result. -/
def resultFlags (sign : Bool) (numClass : NumberClass) (unitbit : Bool) : BitVec 5 :=
  match numClass with
  | .zero => BitVec.ofBool sign ++ 0b0010#4
  | .finite => BitVec.ofBool (!unitbit) ++ (BitVec.ofBool sign ++ (BitVec.ofBool (!sign) ++ 0b00#2))
  | .infinity => 0b0#1 ++ (BitVec.ofBool sign ++ (BitVec.ofBool (!sign) ++ 0b01#2))
  | .nan => 0b10001#5

end Microwatt.Fpu
