import Microwatt.Fpu.Arith

/-!
# The control of the floating-point unit

What a state of the machine assigns: registers of its own, and the selections of the data path.  A
`Ctl` starts with the defaults of a cycle, and the function of each state changes it as the branch
of the source does.
-/

namespace Microwatt.Fpu

/-- The variables of a cycle.  The first group are registers that a state can assign. -/
structure Ctl where
  state : State
  fpscr : BitVec 32
  x : Bool
  first : Bool := false
  count : BitVec 2
  doingFtdiv : BitVec 2 := 0
  regsel : AIn
  aDenorm : Bool
  bDenorm : Bool
  cDenorm : Bool
  longmask : Bool
  addBsmall : Bool
  tiny : Bool
  denorm : Bool
  invalidReg : Bool
  intOvf : Bool
  divClose : Bool
  incQuot : Bool
  instrDone : Bool
  writingFpr : Bool
  illegalReg : Bool
  crResult : BitVec 4
  resultSign : Bool
  resultClass : NumberClass
  opselA : AIn := .zero
  opselAneg : Bool := false
  opselAabs : Bool := false
  opselMask : Bool := false
  opselB : BIn := .r
  opselC : CIn := .zero
  opselR : Res := .sum
  opselS : SSel := .zero
  opselSel : AIn := .zero
  miscSel : Misc := .zero
  fpscrMask : BitVec 32 := BitVec.allOnes 32
  crOp : Crop := .none
  updateFx : Bool := false
  arithDone : Bool := false
  invalid : Bool := false
  zeroDivide : Bool := false
  qnanResult : Bool := false
  illegal : Bool := false
  setX : Bool := false
  setA : Bool := false
  setAExp : Bool := false
  setAMant : Bool := false
  setAHi : Bool := false
  setALo : Bool := false
  setB : Bool := false
  setBMant : Bool := false
  setC : Bool := false
  setY : Bool := false
  setR : Bool := true
  setS : Bool := false
  setCr : Bool := false
  setFpcc : Bool := false
  setRegInd : Bool := false
  /-- `f_to_multiply.valid`. -/
  multiplyValid : Bool := false
  msel1 : Mul1 := .a
  msel2 : Mul2 := .c
  mselAdd : MulAdd := .zero
  mselInv : Bool := false
  pshift : Bool := false
  multMask : Bool := false
  renormSqrt : Bool := false
  shiftin : Bool := false
  shiftin0 : Bool := false
  reSel1 : Rexp1 := .zero
  reSel2 : Rexp2 := .con
  reCon2 : Recon2 := .zero
  reNeg1 : Bool := false
  reNeg2 : Bool := false
  reSetResult : Bool := false
  rsSel1 : Rsh1 := .zero
  rsSel2 : Rsh2 := .con
  rsCon2 : Rscon2 := .zero
  rsNeg1 : Bool := false
  rsNeg2 : Bool := false
  rsNorm : Bool := false
  rsgnOp : Rsgn := .nop
  rclsOp : Rcls := .nop

/-! ## Fields of the instruction word -/

def insnBf (insn : BitVec 32) : BitVec 3 := insn.extractLsb' 23 3
def insnBfa (insn : BitVec 32) : BitVec 3 := insn.extractLsb' 18 3
def insnBt (insn : BitVec 32) : BitVec 5 := insn.extractLsb' 21 5
def insnU (insn : BitVec 32) : BitVec 4 := insn.extractLsb' 12 4

/-- `num_to_fxm`. -/
def numToFxm (num : BitVec 3) : BitVec 8 := 0b10000000#8 >>> num.toNat

/-! ## Conditions on the registers -/

section Conditions

variable (r : Reg)

def rHiNz : Bool := r.r.extractLsb' spLsb 25 != 0
def rLoNz : Bool := r.r.extractLsb' dpLsb 29 != 0
def rGt1 : Bool := r.r.extractLsb' 1 63 != 0
def sNz : Bool := r.s != 0

def maxExp : Int :=
  if !r.i.singlePrec then if !r.doingFtdiv.getLsbD 1 then 1023 else 1020 else 127

def minExp : Int :=
  if !r.i.singlePrec then if !r.doingFtdiv.getLsbD 0 then -1022 else -1021 else -126

def biasExp : Int := if !r.i.singlePrec then 1536 else 192

def newExp : Int := r.resultExp - r.shift

def expTiny : Bool := decide (newExp r < minExp r)
def expHuge : Bool := decide (maxExp r < newExp r)

def pxNz : Bool := r.p.extractLsb' 4 54 != 0

/-- `r.b.mantissa(UNIT_BIT + 1 downto DP_RBIT)`. -/
def bCompared : BitVec 56 := r.b.mantissa.extractLsb' dpRbit 56

def pcmpbEq : Bool := r.p.extractLsb' 4 56 == bCompared r
def pcmpbLt : Bool := r.p.extractLsb' 4 56 < bCompared r
def pcmpcEq : Bool := r.p == r.c.mantissa
def pcmpcLt : Bool := r.p < r.c.mantissa

end Conditions

/-- Whether an operand is a NaN that signals. -/
def FpuReg.isSnan (a : FpuReg) : Bool := decide (a.numClass = .nan) && !a.mantissa.getLsbD qnanBit

/-! ## The states of floating-point instructions -/

section States

variable (r : Reg) (c : Ctl)

/-- `IDLE`; `valid` is `e_in.valid`. -/
def idle (valid isNanInf isZeroDen : Bool) (execState : State) : Ctl :=
  { c with
    invalidReg := false
    state := if valid then if isNanInf || isZeroDen then .doSpecial else execState else c.state
    x := false
    setS := true
    regsel := .zero }

def doSpecial : Ctl :=
  { c with
    rsgnOp := if r.i.isMultiply && decide (r.b.numClass = .zero) then .sub else c.rsgnOp
    state :=
      if r.a.denorm && (r.i.isMultiply || r.i.isInverse) then .renormA
      else if r.c.denorm then .renormC
      else if r.b.denorm && (r.i.isInverse || r.i.isSqrt) then .renormB
      else if r.i.isMultiply && decide (r.b.numClass = .zero) then .doFmul
      else r.execState }

def doIllegal : Ctl := { c with illegal := true, instrDone := true }

/-- The nibble of the FPSCR that an instruction names. -/
def nibble (field : BitVec 3) : Nat := (7 - field.toNat) * 4

def doMcrfs : Ctl :=
  let k := nibble (insnBfa r.i.insn)
  { c with
    crOp := .mcrfs
    setCr := true
    crResult := r.fpscr.extractLsb' k 4
    fpscrMask := setBits c.fpscrMask k (0 : BitVec 4)
    fpscr := r.fpscr &&& (setBits c.fpscrMask k (0 : BitVec 4) ||| 0x6007F8FF)
    instrDone := true }

def doFtdiv : Ctl :=
  let c := { c with reSel2 := .b, reSetResult := true, crOp := .ftdiv }
  if (decide (r.a.numClass = .zero) || decide (r.a.numClass = .finite)) &&
      decide (r.b.numClass = .finite) then
    { c with doingFtdiv := 0b11, first := true, state := .ftdiv1 }
  else { c with setCr := true, instrDone := true }

def doFtsqrt : Ctl := { c with crOp := .ftsqrt, setCr := true, instrDone := true }

def doFcmp : Ctl :=
  let c := { c with opselA := .b, opselB := .zero, setR := true, updateFx := true, crOp := .fcmp }
  let c :=
    if decide (r.a.numClass = .nan) || decide (r.b.numClass = .nan) then
      if r.a.isSnan || r.b.isSnan then
        let fpscr := setBit c.fpscr fpscrVxsnan true
        { c with
          fpscr :=
            if r.i.insn.getLsbD 6 && !r.fpscr.getLsbD fpscrVe then setBit fpscr fpscrVxvc true
            else fpscr
          invalid := true }
      else if r.i.insn.getLsbD 6 then
        { c with fpscr := setBit c.fpscr fpscrVxvc true, invalid := true }
      else c
    else c
  if decide (r.a.numClass = .finite) && decide (r.b.numClass = .finite) &&
      r.a.negative == r.b.negative && r.a.exponent == r.b.exponent then
    { c with state := .cmp1 }
  else { c with setCr := true, setFpcc := true, instrDone := true }

def doMtfsb : Ctl :=
  { c with
    fpscr := setBit c.fpscr (31 - (insnBt r.i.insn).toNat) (r.i.insn.getLsbD 6)
    instrDone := true }

def doMtfsfi : Ctl :=
  { c with
    fpscr :=
      if !r.i.insn.getLsbD 16 then setBits c.fpscr (nibble (insnBf r.i.insn)) (insnU r.i.insn)
      else c.fpscr
    instrDone := true }

def doFmrg : Ctl :=
  { c with setR := true, opselR := .misc, miscSel := .fmrg, writingFpr := true, instrDone := true }

def doMffs : Ctl :=
  let c :=
    { c with
      writingFpr := true
      setR := true
      opselR := .misc
      miscSel := .fpscr
      instrDone := true }
  match r.i.insn.extractLsb' 16 5 with
  | 0b00000 => c
  | 0b00001 => { c with fpscr := setBits c.fpscr fpscrXe (0 : BitVec 5) }
  | 0b10100 | 0b10101 => { c with fpscrMask := 0x000000FF }
  | 0b10110 =>
    { c with
      fpscrMask := 0x000000FF
      fpscr := setBits c.fpscr fpscrRn (r.b.mantissa.extractLsb' fpscrRn 2) }
  | 0b10111 =>
    { c with
      fpscrMask := 0x000000FF
      fpscr := setBits c.fpscr fpscrRn (r.i.insn.extractLsb' 11 2) }
  | 0b11000 => { c with fpscrMask := 0x0007F0FF }
  | _ => { c with illegalReg := true, writingFpr := false }

/-- The fields that `mtfsf` writes. -/
def flm : BitVec 8 :=
  if r.i.insn.getLsbD 25 then 0xFF
  else if r.i.insn.getLsbD 16 then 0x00
  else r.i.insn.extractLsb' 17 8

def doMtfsf : Ctl :=
  { c with
    fpscr := (List.range 8).foldl
      (fun fpscr i =>
        if (flm r).getLsbD i then setBits fpscr (i * 4) (r.b.mantissa.extractLsb' (i * 4) 4)
        else fpscr) c.fpscr
    instrDone := true }

def doFmr : Ctl :=
  { c with
    opselR := .misc
    miscSel := .operand
    opselSel := .b
    setR := true
    rclsOp := .sel
    reSel2 := .b
    reSetResult := true
    writingFpr := true
    instrDone := true }

def doFri : Ctl :=
  let c :=
    { c with
      opselA := .b
      opselB := .zero
      setR := true
      reSel2 := .b
      reSetResult := true
      rsSel1 := .b
      rsCon2 := .fiftyTwo
      rsNeg2 := true }
  if 52 ≤ r.b.exponent then { c with arithDone := true } else { c with state := .fri1 }

def doFrsp : Ctl :=
  { c with
    opselA := .b
    opselB := .zero
    setR := true
    reSel2 := .b
    reSetResult := true
    state := .doFrsp2 }

def doFrsp2 : Ctl :=
  { c with
    rsSel1 := .b
    rsCon2 := .minexp
    rsNeg2 := true
    setX := true
    state :=
      if r.b.exponent < -126 then .roundUflow
      else if 127 < r.b.exponent then .roundOflow
      else .rounding }

def doFcti : Ctl :=
  let c :=
    { c with
      opselA := .b
      opselB := .zero
      setR := true
      reSel2 := .b
      reSetResult := true
      rsSel1 := .b
      rsNeg2 := true }
  if 64 ≤ r.b.exponent ∨ !r.i.insn.getLsbD 9 ∧ 32 ≤ r.b.exponent then { c with state := .intOflow }
  else if 52 ≤ r.b.exponent then
    { c with
      rsCon2 := .unit
      state := if r.i.insn.getLsbD 8 && r.b.negative then .intOflow else .intIshift }
  else { c with rsCon2 := .fiftyTwo, state := .intShift }

def doFcfid : Ctl :=
  let c :=
    { c with
      opselA := .b
      opselAabs := true
      opselB := .zero
      setR := true
      opselSel := .b
      rclsOp := .sel
      reCon2 := .unit
      reSetResult := true }
  if r.b.numClass = .zero then { c with arithDone := true } else { c with state := .finish }

def doFadd : Ctl :=
  let c :=
    { c with
      opselA := .a
      opselB := .zero
      setR := true
      reSel1 := .a
      reSetResult := true
      rsSel1 := .b
      rsNeg1 := true
      rsSel2 := .a
      addBsmall := false }
  if r.a.exponent = r.b.exponent then { c with state := .add2b }
  else if r.a.exponent < r.b.exponent then { c with longmask := false, state := .addShift }
  else { c with addBsmall := true, state := .add1 }

def doFmul : Ctl :=
  { c with
    opselA := .a
    opselB := .zero
    setR := true
    reSel1 := .a
    reSel2 := .c
    reSetResult := true
    multiplyValid := true
    state := .mult1 }

def doFdiv : Ctl :=
  { c with
    opselA := .a
    opselB := .zero
    setR := true
    reSel1 := .a
    reSel2 := .b
    reNeg2 := true
    reSetResult := true
    count := 0
    first := true
    state := .div2 }

def doFsel : Ctl :=
  let c := { c with rsgnOp := .sel, rclsOp := .sel }
  let c :=
    if decide (r.a.numClass = .zero) || !r.a.negative && !decide (r.a.numClass = .nan) then
      { c with opselSel := .c, reSel2 := .c }
    else { c with opselSel := .b, reSel2 := .b }
  { c with
    opselR := .misc
    miscSel := .operand
    setR := true
    reSetResult := true
    arithDone := true }

def doFsqrt : Ctl :=
  { c with
    opselA := .b
    opselB := .zero
    setR := true
    reSel2 := .b
    reSetResult := true
    state :=
      if r.b.exponent % 2 = 1 then .sqrtOdd else if !r.i.isInverse then .sqrt1 else .rsqrt1 }

def doFre : Ctl := { c with reSel2 := .b, reSetResult := true, state := .fre1 }

def doFmadd : Ctl :=
  let c :=
    { c with
      opselA := .b
      opselB := .zero
      setR := true
      reSel1 := .a
      reSel2 := .c
      reSetResult := true
      rsSel1 := .b }
  if r.a.exponent + r.c.exponent + 1 < r.b.exponent then
    { c with multiplyValid := true, first := true, state := .fmadd0 }
  else { c with state := .fmadd1 }

def renormA : Ctl :=
  { c with
    opselA := .a
    opselB := .zero
    setR := true
    regsel := .a
    reSel1 := .a
    reSetResult := true
    aDenorm := false
    state := .renorm1 }

def renormB : Ctl :=
  { c with
    opselA := .b
    opselB := .zero
    setR := true
    regsel := .b
    reSel2 := .b
    reSetResult := true
    bDenorm := false
    state := .renorm1 }

def renormC : Ctl :=
  { c with
    opselA := .c
    opselB := .zero
    setR := true
    regsel := .c
    reSel2 := .c
    reSetResult := true
    cDenorm := false
    state := .renorm1 }

def renorm1 : Ctl := { c with rsNorm := true, renormSqrt := r.i.isSqrt, state := .renorm2 }

def renorm2 : Ctl :=
  { c with
    setRegInd := true
    state :=
      if r.c.denorm then .renormC
      else if r.b.denorm && !r.i.isAddition then .renormB
      else if r.i.isMultiply && decide (r.b.numClass = .zero) then .doFmul
      else r.execState }

def add1 : Ctl :=
  { c with
    opselA := .b
    opselB := .zero
    setR := true
    reSel2 := .b
    reSetResult := true
    rsSel1 := .b
    rsSel2 := .a
    rsNeg2 := true
    longmask := false
    state := .addShift }

def addShift : Ctl :=
  { c with
    opselR := .shift
    setR := true
    reSel2 := .ne
    reSetResult := true
    x := sNz r
    setX := true
    longmask := r.i.singlePrec
    state := if r.addBsmall then .add2 else .add2b }

def add2 : Ctl :=
  { c with
    opselA := .a
    opselB := .addsubr
    opselC := .subext
    setR := true
    rsCon2 := .one
    rsNeg2 := true
    state := .add3 }

def add2b : Ctl :=
  { c with
    opselA := .b
    opselB := .addsubr
    opselC := .subext
    setR := true
    rsCon2 := .one
    rsNeg2 := true
    state := .add3 }

def add3 : Ctl :=
  let c := { c with reSel2 := .ne, rclsOp := .tzero, opselA := .zero, opselB := .absr }
  if r.r.getLsbD 63 then { c with rsgnOp := .inv, setR := true, state := .finish }
  else if r.r.getLsbD (unitBit + 1) then
    { c with
      opselR := .shift
      setR := true
      reSetResult := true
      setX := true
      state := if expHuge r then .roundOflow else .rounding }
  else if r.r.getLsbD unitBit then { c with setX := true, state := .rounding }
  else { c with rsNorm := true, state := .normalize }

def cmp1 : Ctl := { c with opselA := .a, opselB := .minusr, setR := true, state := .cmp2 }

def cmp2 : Ctl := { c with crOp := .fcmp, setCr := true, setFpcc := true, instrDone := true }

def mult1 (multiplyDone : Bool) : Ctl :=
  let c := { c with multiplyValid := r.first, opselR := .mult, setR := true }
  if multiplyDone then { c with state := .finish } else c

def fmadd0 (multiplyDone : Bool) : Ctl :=
  let c :=
    { c with
      rsSel1 := if r.first then .ne else .s
      opselR := .mult
      setR := true
      opselS := .mult
      setS := true }
  if multiplyDone then { c with longmask := false, state := .addShift } else c

def fmadd1 : Ctl :=
  { c with
    reSel2 := .b
    reSetResult := true
    rsSel1 := .ne
    rsNeg1 := true
    rsCon2 := .sixtyFour
    state := .fmadd2 }

def fmadd2 : Ctl :=
  { c with
    setS := true
    opselS := .shift
    rsSel1 := .s
    rsCon2 := .sixtyFour
    rsNeg2 := true
    state := .fmadd3 }

def fmadd3 : Ctl :=
  { c with
    opselR := .shift
    setR := true
    reSel2 := .ne
    reSetResult := true
    first := true
    state := .fmadd4 }

def fmadd4 (multiplyDone : Bool) : Ctl :=
  let c :=
    { c with
      mselAdd := .rs
      setR := true
      multiplyValid := r.first
      mselInv := r.i.isSubtract
      opselR := .mult
      opselS := .mult
      setS := true }
  if multiplyDone then { c with state := .fmadd5 } else c

def fmadd5 : Ctl :=
  let c := { c with opselB := .absr, opselC := .absext, rsCon2 := .unit, state := .fmadd6 }
  if r.r.getLsbD 63 then { c with rsgnOp := .inv, setR := true, opselS := .neg, setS := true }
    else c

def fmadd6 : Ctl :=
  let c :=
    { c with setR := false, opselR := .shift, reSel2 := .ne, rsNorm := true, rclsOp := .tzero }
  if !(r.r.getLsbD (unitBit + 2) || rHiNz r || rLoNz r || r.r.extractLsb' 0 dpLsb != 0) then
    { c with setR := true, reSetResult := true, setS := true, state := .finish }
  else if r.r.extractLsb' unitBit 3 == 0b001 then { c with state := .finish }
  else { c with state := .normalize }

def div2 (multiplyDone : Bool) : Ctl :=
  let c :=
    { c with
      msel1 := .b
      mselAdd := .const
      mselInv := true
      msel2 := if r.count == 0 then .lut else .p
      setY := r.first
      pshift := true
      multiplyValid := r.first }
  if multiplyDone then { c with first := true, count := r.count + 1, state := .div3 } else c

def div3 (multiplyDone : Bool) : Ctl :=
  let c := { c with msel1 := .y, msel2 := .p, multiplyValid := r.first, pshift := true }
  if multiplyDone then
    { c with first := true, state := if r.count == 3 then .div4 else .div2 }
  else c

def div4 (multiplyDone : Bool) : Ctl :=
  let c :=
    { c with
      msel1 := .a
      msel2 := .p
      setY := r.first
      multiplyValid := r.first
      pshift := true
      multMask := true
      opselR := .mult
      setR := true }
  if multiplyDone then { c with first := true, state := .div5 } else c

def div5 (multiplyDone : Bool) : Ctl :=
  let c :=
    { c with
      msel1 := .b
      msel2 := .r
      mselAdd := .a
      mselInv := true
      multiplyValid := r.first }
  if multiplyDone then { c with state := .div6 } else c

def div6 : Ctl :=
  let c := { c with opselA := .rndRbit, state := .finish }
  if pcmpbLt r then { c with setR := false, x := r.p.getLsbD (unitBit + 2) || pxNz r }
  else { c with setR := true, x := !pcmpbEq r }

def fre1 : Ctl :=
  { c with
    reSel1 := .r
    reNeg1 := true
    reSetResult := true
    opselR := .misc
    setR := true
    miscSel := .lut
    rsCon2 := .one
    state := .normalize }

def ftdiv1 : Ctl :=
  let c := { c with rsSel2 := .a, crOp := .ftdiv }
  if expTiny r || expHuge r || decide (r.a.numClass = .zero) || !r.first then
    { c with setCr := true, instrDone := true }
  else { c with doingFtdiv := 0b10 }

def sqrtOdd : Ctl := { c with rsCon2 := .one, regsel := .b, state := .renorm2 }

def rsqrt1 : Ctl :=
  { c with
    opselR := .misc
    miscSel := .lut
    setR := true
    reSel1 := .bhalf
    reNeg1 := true
    reSetResult := true
    rsCon2 := .one
    state := .normalize }

def sqrt1 : Ctl :=
  { c with
    setA := true
    opselR := .misc
    miscSel := .lut
    setR := true
    msel1 := .b
    msel2 := .lut
    multiplyValid := true
    rsCon2 := .one
    rsNeg2 := true
    count := 0
    state := .sqrt2 }

def sqrt2 : Ctl :=
  { c with
    opselR := .shift
    setR := true
    reSel2 := .ne
    reSetResult := true
    first := true
    state := .sqrt3 }

def sqrt3 (multiplyDone : Bool) : Ctl :=
  let c :=
    { c with
      msel2 := .r
      setY := r.first
      pshift := true
      multMask := true
      opselR := .mult
      setR := true }
  if multiplyDone then { c with first := true, state := .sqrt4 } else c

def sqrt4 (multiplyDone : Bool) : Ctl :=
  let c :=
    { c with
      msel1 := .y
      msel2 := .p
      mselAdd := .const
      mselInv := true
      multiplyValid := r.first
      pshift := true }
  if multiplyDone then { c with state := .sqrt5 } else c

def sqrt5 : Ctl :=
  { c with msel1 := .y, msel2 := .p, multiplyValid := true, first := true, state := .sqrt6 }

def sqrt6 (multiplyDone : Bool) : Ctl :=
  let c := { c with msel1 := .r, msel2 := .p, multiplyValid := r.first, pshift := true }
  if multiplyDone then { c with first := true, state := .sqrt7 } else c

def sqrt7 (multiplyDone : Bool) : Ctl :=
  let c :=
    { c with
      msel2 := .p
      setY := r.first
      pshift := true
      multMask := true
      opselR := .mult
      setR := true }
  if multiplyDone then
    { c with
      first := true
      count := r.count + 1
      state := if r.count < 2 then .sqrt4 else .sqrt8 }
  else c

def sqrt8 (multiplyDone : Bool) : Ctl :=
  let c :=
    { c with
      msel1 := .r
      msel2 := .r
      mselAdd := .a
      mselInv := true
      pshift := true
      multiplyValid := r.first }
  if multiplyDone then { c with first := true, state := .sqrt9 } else c

def sqrt9 (multiplyDone : Bool) : Ctl :=
  let c := { c with msel1 := .y, msel2 := .p, pshift := true, multiplyValid := r.first }
  if multiplyDone then { c with state := .sqrt10 } else c

def sqrt10 : Ctl :=
  { c with
    opselA := .ps8
    setR := true
    reSel1 := .bhalf
    reSetResult := true
    rsCon2 := .one
    first := true
    state := .sqrt11 }

def sqrt11 (multiplyDone : Bool) : Ctl :=
  let c :=
    { c with
      msel1 := .r
      msel2 := .r
      mselAdd := .a
      mselInv := true
      multiplyValid := r.first
      shiftin := true
      setB := r.first }
  if multiplyDone then { c with state := .sqrt12 } else c

def sqrt12 : Ctl :=
  let c := { c with setR := false, opselC := .inc, state := .finish }
  if pcmpbLt r then { c with x := r.p.getLsbD (unitBit + 2) || pxNz r }
  else { c with setR := true, x := !pcmpbEq r }

def intShift : Ctl :=
  { c with
    opselR := .shift
    setR := true
    reSel2 := .ne
    reSetResult := true
    setX := true
    state := .intRound
    rsCon2 := .unit52
    rsNeg2 := true }

/-- `v.fpscr(FPSCR_FR downto FPSCR_FI) := round`. -/
def setRound (fpscr : BitVec 32) (round : Bool × Bool) : BitVec 32 :=
  setBit (setBit fpscr fpscrFr round.1) fpscrFi round.2

def intRound : Ctl :=
  let round := fpRounding r.r r.x false r.i.roundMode r.resultSign
  { c with
    opselR := .shift
    setR := true
    reSel2 := .ne
    reSetResult := true
    fpscr := setRound c.fpscr round
    state :=
      if r.i.insn.getLsbD 8 && r.resultSign && (rHiNz r || rLoNz r || round.1) then .intOflow
      else .intFinal }

def intIshift : Ctl :=
  { c with opselR := .shift, setR := true, reSel2 := .ne, reSetResult := true, state := .intFinal }

/-- `need_check`: the converted number may be out of range. -/
def needCheck : Bool :=
  match r.i.insn.getLsbD 9, r.i.insn.getLsbD 8 with
  | false, false => r.r.getLsbD 31 || (r.r.getLsbD 30 && !r.resultSign)
  | false, true => r.r.getLsbD 31
  | true, false => r.r.getLsbD 63 || (r.r.getLsbD 62 && !r.resultSign)
  | true, true => r.r.getLsbD 63

def intFinal : Ctl :=
  let c := { c with opselB := .rsignr, opselC := .round, setR := true }
  if needCheck r then { c with state := .intCheck }
  else
    { c with
      fpscr := if r.fpscr.getLsbD fpscrFi then setBit c.fpscr fpscrXx true else c.fpscr
      arithDone := true }

def intCheck : Ctl :=
  let msb := if !r.i.insn.getLsbD 9 then r.r.getLsbD 31 else r.r.getLsbD 63
  let c := { c with opselR := .misc, miscSel := .intLimit, arithDone := true }
  if !r.i.insn.getLsbD 8 && msb != r.resultSign || r.i.insn.getLsbD 8 && !msb then
    { c with setR := true, fpscr := setBit c.fpscr fpscrVxcvi true, invalid := true }
  else
    { c with
      setR := false
      fpscr := if r.fpscr.getLsbD fpscrFi then setBit c.fpscr fpscrXx true else c.fpscr }

def intOflow : Ctl :=
  { c with
    opselR := .misc
    miscSel := .intLimit
    setR := true
    fpscr := setBit c.fpscr fpscrVxcvi true
    invalid := true
    arithDone := true }

def fri1 : Ctl :=
  { c with
    opselR := .shift
    setR := true
    reSel2 := .ne
    reSetResult := true
    setX := true
    state := .rounding }

def finish : Ctl :=
  let c :=
    { c with
      x := if r.i.isMultiply && pxNz r then true else c.x
      rsSel1 := .ne
      rsCon2 := .minexp
      rsNeg2 := true }
  if r.r.extractLsb' unitBit 8 != 1 then { c with rsNorm := true, state := .normalize }
  else
    { c with
      setX := true
      state := if expTiny r then .roundUflow else if expHuge r then .roundOflow else .rounding }

def normalize : Ctl :=
  { c with
    opselR := .shift
    setR := true
    reSel2 := .ne
    reSetResult := true
    rsSel1 := .ne
    rsCon2 := .minexp
    rsNeg2 := true
    setX := true
    state := if expTiny r then .roundUflow else if expHuge r then .roundOflow else .rounding }

def roundUflow : Ctl :=
  let c := { c with tiny := true, opselR := .shift }
  if !r.fpscr.getLsbD fpscrUe then
    { c with
      setR := true
      reSel2 := .ne
      reSetResult := true
      setX := true
      state := .rounding }
  else
    let c :=
      { c with
        setR := false
        fpscr := setBit c.fpscr fpscrUx true
        reSel1 := .r
        reCon2 := .bias
        reSetResult := true }
    if !r.r.getLsbD unitBit then { c with rsNorm := true, state := .normalize }
    else { c with state := .rounding }

def roundOflow : Ctl :=
  let c :=
    { c with
      rclsOp := .tinf
      fpscr := setBit c.fpscr fpscrOx true
      opselR := .misc
      miscSel := .maxNumber }
  if !r.fpscr.getLsbD fpscrOe then
    { c with
      setR := true
      fpscr := setBit (setBit c.fpscr fpscrXx true) fpscrFi true
      reCon2 := .max
      reSetResult := true
      arithDone := true }
  else
    { c with
      setR := false
      reSel1 := .r
      reCon2 := .bias
      reNeg2 := true
      reSetResult := true
      state := .rounding }

def rounding : Ctl :=
  let round := fpRounding r.r r.x r.i.singlePrec r.i.roundMode r.resultSign
  let fpscr := setRound c.fpscr round
  let fpscr :=
    if round.2 then
      let fpscr := setBit fpscr fpscrXx true
      if r.tiny then setBit fpscr fpscrUx true else fpscr
    else fpscr
  let c := { c with opselMask := true, setR := true, fpscr := fpscr }
  if round.1 then { c with state := .roundInc }
  else if !r.r.getLsbD unitBit then { c with rsNorm := true, state := .rounding3 }
  else { c with arithDone := true }

def roundInc : Ctl :=
  { c with setR := true, opselA := .rnd, rsCon2 := .one, rsNeg2 := true, state := .rounding2 }

def rounding2 : Ctl :=
  let c := { c with x := false, reSel2 := .ne, opselR := .shift, setR := false }
  if r.r.getLsbD (unitBit + 1) then
    let c := { c with setR := true, reSetResult := true }
    if expHuge r then { c with state := .roundOflow } else { c with arithDone := true }
  else if !r.r.getLsbD unitBit then { c with rsNorm := true, state := .rounding3 }
  else { c with arithDone := true }

def rounding3 : Ctl :=
  let c :=
    { c with
      opselR := .shift
      setR := true
      reSel2 := .ne
      rsSel1 := .ne
      rsCon2 := .minexp
      rsNeg2 := true
      rclsOp := .tzero
      reSetResult := true
      denorm := expTiny r }
  if newExp r < -1022 then { c with state := .denorm } else { c with arithDone := true }

def denorm : Ctl :=
  { c with opselR := .shift, setR := true, reSel2 := .ne, reSetResult := true, arithDone := true }

end States

end Microwatt.Fpu
