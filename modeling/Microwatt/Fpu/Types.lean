import Microwatt.Multiply
import Microwatt.Writeback

/-!
# The registers of the floating-point unit

The types of `fpu.vhdl`.  A mantissa is in 8.56 format, with the unit bit at `unitBit`.  An exponent
is unbiased; the 13 bits that it has in the source hold every sum of exponents and shifts that is
formed, so it is an integer here.
-/

namespace Microwatt.Fpu

open Execute1 (XerCommon InstrTag)

/-- `fp_number_class`. -/
inductive NumberClass where
  | zero
  | finite
  | infinity
  | nan
deriving DecidableEq

def unitBit : Nat := 56
def qnanBit : Nat := unitBit - 1
def spLsb : Nat := unitBit - 23
def spGbit : Nat := spLsb - 1
def spRbit : Nat := spLsb - 2
def dpLsb : Nat := unitBit - 52
def dpGbit : Nat := dpLsb - 1
def dpRbit : Nat := dpLsb - 2

/-- `fpu_reg_type`: an operand. -/
structure FpuReg where
  numClass : NumberClass
  negative : Bool
  denorm : Bool
  naninf : Bool
  zeroexp : Bool
  exponent : Int
  mantissa : BitVec 64

/-- `state_t`. -/
inductive State where
  | idle | doIllegal | doSpecial
  | doMcrfs | doMtfsb | doMtfsfi | doMffs | doMtfsf
  | doFmr | doFmrg | doFcmp | doFtdiv | doFtsqrt
  | doFcfid | doFcti
  | doFrsp | doFrsp2 | doFri
  | doFadd | doFmul | doFdiv | doFsqrt | doFmadd
  | doFre
  | doFsel
  | doIdivmod
  | fri1
  | add1 | addShift | add2 | add2b | add3
  | cmp1 | cmp2
  | mult1
  | fmadd0 | fmadd1 | fmadd2 | fmadd3
  | fmadd4 | fmadd5 | fmadd6
  | div2 | div3 | div4 | div5 | div6
  | fre1
  | sqrtOdd | rsqrt1
  | ftdiv1
  | sqrt1 | sqrt2 | sqrt3 | sqrt4
  | sqrt5 | sqrt6 | sqrt7 | sqrt8
  | sqrt9 | sqrt10 | sqrt11 | sqrt12
  | intShift | intRound | intIshift
  | intFinal | intCheck | intOflow
  | finish | normalize
  | roundUflow | roundOflow
  | rounding | roundInc | rounding2 | rounding3
  | denorm
  | renormA | renormB | renormC
  | renorm1 | renorm2
  | idivNormb | idivNormb2 | idivNormb3
  | idivClza | idivClza2 | idivClza3
  | idivNr0 | idivNr1 | idivNr2 | idivUse05
  | idivDodiv | idivSh32
  | idivDiv | idivDiv2 | idivDiv3 | idivDiv4 | idivDiv5
  | idivDiv6 | idivDiv7 | idivDiv8 | idivDiv9
  | idivExtTbh | idivExtTbh2 | idivExtTbh3
  | idivExtTbh4 | idivExtTbh5
  | idivExtdiv | idivExtdiv1 | idivExtdiv2 | idivExtdiv3
  | idivExtdiv4 | idivExtdiv5 | idivExtdiv6
  | idivModadj | idivModadjNeg | idivModsub
  | idivDivadj | idivOvfchk | idivDone | idivZero
deriving DecidableEq

/-- The values of `insn_type_t` that the unit tells apart. -/
inductive Op where
  | fpArith
  | fpCmp
  | fpMisc
  | fpMove
  | div
  | dive
  | mod
  | other
deriving DecidableEq

/-- `Execute1ToFPUType`. -/
structure Execute1ToFPU where
  valid : Bool
  op : Op
  itag : InstrTag
  insn : BitVec 32
  single : Bool
  isSigned : Bool
  feMode : BitVec 2
  fra : BitVec 64
  frb : BitVec 64
  frc : BitVec 64
  validA : Bool
  validB : Bool
  validC : Bool
  frt : BitVec 6
  rc : Bool
  m32b : Bool
  outCr : Bool
  oe : Bool
  xerc : XerCommon
  stall : Bool

/-- The inputs of a cycle. -/
structure Inputs where
  rst : Bool
  flushIn : Bool
  eIn : Execute1ToFPU

/-! ## The selections of the data path -/

/-- The A input of the adder, and the operand that is selected. -/
inductive AIn where
  | zero
  | a
  | b
  | c
  | ps8
  | rndB32
  | rndRbit
  | rnd
deriving DecidableEq

/-- The B input of the adder. -/
inductive BIn where
  | zero
  | r
  | minusr
  | absr
  | addsubr
  | rsignr
deriving DecidableEq

/-- The carry input of the adder. -/
inductive CIn where
  | zero
  | subext
  | absext
  | inc
  | round
  | rndx
  | rndq
deriving DecidableEq

/-- What goes to R. -/
inductive Res where
  | sum
  | shift
  | mult
  | misc
deriving DecidableEq

/-- `misc_sel`. -/
inductive Misc where
  | zero
  | qnan
  | maxNumber
  | fpscr
  | fmrg
  | lut
  | intLimit
  | operand
deriving DecidableEq

/-- What goes to S. -/
inductive SSel where
  | zero
  | neg
  | shift
  | mult
deriving DecidableEq

inductive Mul1 where
  | a
  | b
  | y
  | r
deriving DecidableEq

inductive Mul2 where
  | c
  | lut
  | p
  | r
deriving DecidableEq

inductive MulAdd where
  | zero
  | const
  | a
  | rs
deriving DecidableEq

inductive Rexp1 where
  | zero
  | r
  | a
  | bhalf
deriving DecidableEq

inductive Rexp2 where
  | con
  | ne
  | c
  | b
deriving DecidableEq

inductive Recon2 where
  | zero
  | unit
  | bias
  | max
deriving DecidableEq

inductive Rsh1 where
  | zero
  | b
  | ne
  | s
deriving DecidableEq

inductive Rsh2 where
  | con
  | a
deriving DecidableEq

inductive Rscon2 where
  | zero
  | one
  | unit52
  | sixtyFourUnit
  | thirtyTwo
  | fiftyTwo
  | unit
  | sixtyThree
  | sixtyFour
  | minexp
deriving DecidableEq

inductive Rsgn where
  | nop
  | inv
  | sub
  | sel
deriving DecidableEq

inductive Rcls where
  | nop
  | sel
  | tzero
  | tinf
deriving DecidableEq

inductive Crop where
  | none
  | fcmp
  | mcrfs
  | ftdiv
  | ftsqrt
  | intres
deriving DecidableEq

/-! ## The registers -/

/-- The part of `reg_type` that an instruction sets when it is captured and that does not change
until the next one. -/
structure Captured where
  insn : BitVec 32
  instrTag : InstrTag
  feMode : Bool
  destFpr : BitVec 6
  singlePrec : Bool
  isSigned : Bool
  rc : Bool
  fpRc : Bool
  isCmp : Bool
  oe : Bool
  m32b : Bool
  xerc : XerCommon
  integerOp : Bool
  divext : Bool
  divmod : Bool
  isSqrt : Bool
  isMultiply : Bool
  isAddition : Bool
  isSubtract : Bool
  isInverse : Bool
  useA : Bool
  useB : Bool
  useC : Bool
  roundMode : BitVec 3
  negate : Bool
  quietenNan : Bool
  intResult : Bool

/-- `reg_type`. -/
structure Reg where
  i : Captured
  state : State
  execState : State
  busy : Bool
  f2stall : Bool
  instrDone : Bool
  complete : Bool
  doIntr : Bool
  illegal : Bool
  cycle1Ar : Bool
  isNanInf : Bool
  first : Bool
  count : BitVec 2
  doingFtdiv : BitVec 2
  regsel : AIn
  fpscr : BitVec 32
  /-- The committed FPSCR value. -/
  commFpscr : BitVec 32
  oldExc : BitVec 5
  a : FpuReg
  b : FpuReg
  c : FpuReg
  r : BitVec 64
  /-- The extended fraction. -/
  s : BitVec 56
  x : Bool
  p : BitVec 64
  y : BitVec 64
  aHi : BitVec 8
  aLo : BitVec 56
  resultSign : Bool
  resultClass : NumberClass
  resultExp : Int
  shift : Int
  longmask : Bool
  addBsmall : Bool
  tiny : Bool
  denorm : Bool
  invalid : Bool
  intOvf : Bool
  divClose : Bool
  incQuot : Bool
  updateFprf : Bool
  /-- The result of the last instruction, which may have to wait for a stall. -/
  spResult : Bool
  resInt : Bool
  resSign : Bool
  nsnanResult : Bool
  writingFpr : Bool
  writingCr : Bool
  writingXer : Bool
  writeReg : BitVec 6
  completeTag : InstrTag
  crResult : BitVec 4
  crMask : BitVec 8
  xercResult : XerCommon

/-- The whole unit: its registers, its multiplier and the register behind the lookup table. -/
structure Machine where
  reg : Reg
  multiply : Multiply
  inverseEst : BitVec 19

end Microwatt.Fpu
