import Microwatt.Fpu.Idiv

/-!
# A cycle of the floating-point unit

The processes of `fpu.vhdl`: the capture of an instruction, the special cases of its second cycle,
the state machine, and the data path that the state controls.  The contents of the lookup table are
a parameter.
-/

namespace Microwatt.Fpu

open Writeback (FPUToWriteback)

/-! ## The instruction -/

section Capture

variable (e : Execute1ToFPU)

/-- `arith_decode`, indexed by bits 5 to 1 of the opcode. -/
def arithDecode (bits : BitVec 5) : State :=
  match bits with
  | 0b01000 => .doFri
  | 0b01100 => .doFrsp
  | 0b01110 => .doFcti
  | 0b01111 => .doFcti
  | 0b10010 => .doFdiv
  | 0b10100 => .doFadd
  | 0b10101 => .doFadd
  | 0b10110 => .doFsqrt
  | 0b11000 => .doFre
  | 0b11001 => .doFmul
  | 0b11010 => .doFsqrt
  | 0b11100 => .doFmadd
  | 0b11101 => .doFmadd
  | 0b11110 => .doFmadd
  | 0b11111 => .doFmadd
  | _ => .doIllegal

/-- `cmp_decode`. -/
def cmpDecode (bits : BitVec 3) : State :=
  match bits with
  | 0b000 => .doFcmp
  | 0b001 => .doFcmp
  | 0b010 => .doMcrfs
  | 0b100 => .doFtdiv
  | 0b101 => .doFtsqrt
  | _ => .doIllegal

/-- `misc_decode`, indexed by bits 10, 8, 4, 2 and 1 of the opcode. -/
def miscDecode (bits : BitVec 5) : State :=
  match bits with
  | 0b00010 => .doMtfsb
  | 0b01010 => .doMtfsfi
  | 0b10010 => .doFmrg
  | 0b11010 => .doFmrg
  | 0b10011 => .doMffs
  | 0b11011 => .doMtfsf
  | 0b10110 => .doFcfid
  | 0b11110 => .doFcfid
  | _ => .doIllegal

/-- Bits 5 to 1 of the opcode. -/
def arithBits : BitVec 5 := e.insn.extractLsb' 1 5

/-- `opcbits`. -/
def opcbits : BitVec 5 :=
  BitVec.ofBool (e.insn.getLsbD 10) ++ (BitVec.ofBool (e.insn.getLsbD 8) ++
    (BitVec.ofBool (e.insn.getLsbD 4) ++ e.insn.extractLsb' 1 2))

/-- `exec_state`. -/
def execState : State :=
  match e.op with
  | .fpArith => arithDecode (arithBits e)
  | .fpCmp => cmpDecode (e.insn.extractLsb' 6 3)
  | .fpMisc => miscDecode (opcbits e)
  | .fpMove => if !e.insn.getLsbD 5 then .doFmr else .doFsel
  | .div => .doIdivmod
  | .dive => .doIdivmod
  | .mod => .doIdivmod
  | .other => .doIllegal

def isArith : Bool := decide (e.op = .fpArith)

def isIntegerOp : Bool := decide (e.op = .div ∨ e.op = .dive ∨ e.op = .mod)

/-- `fpin_a`; `fpin_b` is set for the same operations. -/
def fpinA : Bool := decide (e.op = .fpArith ∨ e.op = .fpCmp ∨ e.op = .fpMove) && e.validA
def fpinB : Bool := decide (e.op = .fpArith ∨ e.op = .fpCmp ∨ e.op = .fpMove) && e.validB
def fpinC : Bool := decide (e.op = .fpArith ∨ e.op = .fpMove) && e.validC

def is32bint : Bool := isIntegerOp e && e.single

/-- Bits 5 to 1 of the opcode are 10100 or 10101. -/
def isFadd : Bool := isArith e && (arithBits e == 0b10100 || arithBits e == 0b10101)

def isFmul : Bool := isArith e && arithBits e == 0b11001

/-- Bits 5 to 1 of the opcode are 11100 to 11111. -/
def isFmadd : Bool := isArith e && (arithBits e).extractLsb' 2 3 == 0b111

def isFdiv : Bool := isArith e && arithBits e == 0b10010

/-- The sign that an arithmetic instruction starts with. -/
def arithSign : Bool :=
  if isFadd e then
    if e.fra.extractLsb' 52 11 ≤ e.frb.extractLsb' 52 11 then
      e.frb.getLsbD 63 == e.insn.getLsbD 1
    else e.fra.getLsbD 63
  else if isFmul e then e.fra.getLsbD 63 ^^ e.frc.getLsbD 63
  else if isFmadd e then e.frb.getLsbD 63 == e.insn.getLsbD 1
  else if isFdiv e then e.fra.getLsbD 63 ^^ e.frb.getLsbD 63
  else e.frb.getLsbD 63

/-- The sign that a move gives its result. -/
def moveSign : Bool :=
  if !e.insn.getLsbD 5 then
    if e.insn.getLsbD 9 then false
    else if e.insn.getLsbD 8 then true
    else if e.insn.getLsbD 7 then e.frb.getLsbD 63
    else if e.insn.getLsbD 6 then !e.frb.getLsbD 63
    else e.fra.getLsbD 63
  else e.frb.getLsbD 63

/-- `v.result_sign`. -/
def startSign : Bool :=
  match e.op with
  | .fpArith => arithSign e
  | .fpCmp => false
  | .fpMisc => opcbits e == 0b10110 && e.frb.getLsbD 63
  | .fpMove => moveSign e
  | .div | .dive =>
    e.isSigned &&
      if !e.single then e.fra.getLsbD 63 ^^ e.frb.getLsbD 63
      else e.fra.getLsbD 31 ^^ e.frb.getLsbD 31
  | .mod => e.isSigned && if !e.single then e.fra.getLsbD 63 else e.fra.getLsbD 31
  | .other => false

/-- `v.round_mode`. -/
def startRoundMode (fpscr : BitVec 32) : BitVec 3 :=
  if isArith e && arithBits e == 0b01111 then 0b001
  else if isArith e && arithBits e == 0b01000 then 0b1#1 ++ e.insn.extractLsb' 6 2
  else 0b0#1 ++ fpscr.extractLsb' fpscrRn 2

/-- The fields of an instruction that is captured. -/
def captured (fpscr : BitVec 32) : Captured where
  insn := e.insn
  instrTag := e.itag
  feMode := e.feMode != 0
  destFpr := e.frt
  singlePrec := e.single
  isSigned := e.isSigned
  rc := e.rc
  fpRc := decide (e.op = .fpArith ∨ e.op = .fpMisc ∨ e.op = .fpMove) && e.rc
  isCmp := e.outCr
  oe := e.oe
  m32b := e.m32b
  xerc := e.xerc
  integerOp := isIntegerOp e
  divext := decide (e.op = .dive)
  divmod := decide (e.op = .mod)
  isSqrt := isArith e && (arithBits e == 0b10110 || arithBits e == 0b11010)
  isMultiply := isFmul e || isFmadd e
  isAddition := isFadd e || isFmadd e
  isSubtract :=
    if isFadd e then !(e.fra.getLsbD 63 ^^ e.frb.getLsbD 63 ^^ e.insn.getLsbD 1)
    else if isFmadd e then
      !(e.fra.getLsbD 63 ^^ e.frb.getLsbD 63 ^^ e.frc.getLsbD 63 ^^ e.insn.getLsbD 1)
    else false
  isInverse := isFdiv e || (isArith e && (arithBits e == 0b11000 || arithBits e == 0b11010))
  useA := e.validA
  useB := e.validB
  useC := e.validC
  roundMode := startRoundMode e fpscr
  negate := isFmadd e && e.insn.getLsbD 2
  quietenNan := !decide (e.op = .fpMove)
  intResult :=
    (isArith e && (arithBits e == 0b01110 || arithBits e == 0b01111)) ||
      (decide (e.op = .fpMisc) &&
        (opcbits e == 0b10010 || opcbits e == 0b11010 || opcbits e == 0b10011))

/-- The decoded operands. -/
def adec : FpuReg := decodeDp e.fra (fpinA e) (is32bint e) e.isSigned
def bdec : FpuReg := decodeDp e.frb (fpinB e) (is32bint e) e.isSigned
def cdec : FpuReg := decodeDp e.frc (fpinC e) false false

def isNanInf : Bool := isArith e && ((adec e).naninf || (bdec e).naninf || (cdec e).naninf)
def isZeroDen : Bool := isArith e && ((adec e).zeroexp || (bdec e).zeroexp || (cdec e).zeroexp)

end Capture

/-! ## Special cases -/

/-- `specialcase_t`. -/
structure SpecialCase where
  invalid : Bool := false
  zeroDivide : Bool := false
  newFpscr : BitVec 32 := 0
  immedResult : Bool := false
  qnanResult : Bool := false
  resultSel : AIn := .zero
  resultClass : NumberClass := .finite
  rsgnOp : Rsgn := .nop

section Special

variable (r : Reg)

/-- `invalid_mul`. -/
def invalidMul : Bool :=
  r.i.isMultiply &&
    (decide (r.a.numClass = .infinity ∧ r.c.numClass = .zero) ||
      decide (r.a.numClass = .zero ∧ r.c.numClass = .infinity))

def isSnanOp : Bool := r.a.isSnan || r.b.isSnan || r.c.isSnan

/-- The case of an operand that is NaN or infinity. -/
def nanInfCase (e : SpecialCase) : SpecialCase :=
  let e := { e with immedResult := true }
  if r.i.intResult then
    { e with qnanResult := true, newFpscr := setBit e.newFpscr fpscrVxcvi true }
  else if r.a.numClass = .nan ∨ r.b.numClass = .nan ∨ r.c.numClass = .nan then
    { e with
      resultClass := .nan
      rsgnOp := .sel
      resultSel := if r.a.numClass = .nan then .a else if r.b.numClass = .nan then .b else .c }
  else
    let e :=
      if invalidMul r then { e with qnanResult := true }
      else if r.a.numClass = .infinity ∨ r.c.numClass = .infinity then
        let e := if r.i.isMultiply then { e with rsgnOp := .sub } else e
        if r.i.isSubtract && decide (r.b.numClass = .infinity) then
          { e with newFpscr := setBit e.newFpscr fpscrVxisi true, qnanResult := true }
        else e
      else e
    let e :=
      if r.i.isInverse && decide (r.a.numClass = .infinity ∧ r.b.numClass = .infinity) then
        { e with newFpscr := setBit e.newFpscr fpscrVxidi true, qnanResult := true }
      else e
    let e :=
      if decide (r.b.numClass = .infinity) && r.i.isSqrt && r.b.negative then
        { e with newFpscr := setBit e.newFpscr fpscrVxsqrt true, qnanResult := true }
      else e
    { e with
      resultClass :=
        if decide (r.b.numClass = .infinity) && r.i.isInverse then .zero else .infinity }

/-- The case of operand A that is zero. -/
def aZeroCase (e : SpecialCase) : SpecialCase :=
  let e := { e with immedResult := true }
  let e :=
    if r.i.isAddition then { e with resultSel := .b, resultClass := r.b.numClass }
    else { e with resultClass := .zero }
  if r.i.isInverse && decide (r.b.numClass = .zero) then
    { e with newFpscr := setBit e.newFpscr fpscrVxzdz true, qnanResult := true }
  else e

/-- The case of operand B that is zero, with other operands that are finite. -/
def bZeroCase (e : SpecialCase) : SpecialCase :=
  let e := { e with immedResult := true }
  if r.i.isInverse then
    { e with
      resultClass := .infinity
      newFpscr := setBit e.newFpscr fpscrZx true
      zeroDivide := true }
  else if r.i.isAddition then { e with resultSel := .a }
  else { e with resultClass := .zero }

/-- `scinfo`. -/
def scinfo : SpecialCase :=
  let e : SpecialCase := {}
  let e :=
    if isSnanOp r then
      { e with newFpscr := setBit e.newFpscr fpscrVxsnan true, invalid := true }
    else e
  let e :=
    if invalidMul r then
      { e with newFpscr := setBit e.newFpscr fpscrVximz true, invalid := true }
    else e
  let e :=
    if r.isNanInf then nanInfCase r e
    else if r.i.useA && decide (r.a.numClass = .zero) then aZeroCase r e
    else if r.i.useC && decide (r.c.numClass = .zero) then
      { e with immedResult := true, resultSel := .b, resultClass := r.b.numClass }
    else if (r.i.useB && decide (r.b.numClass = .zero)) && !r.i.isMultiply then bZeroCase r e
    else e
  let e :=
    if (r.i.isSqrt && decide (r.b.numClass = .finite)) && r.b.negative then
      { e with
        immedResult := true
        newFpscr := setBit e.newFpscr fpscrVxsqrt true
        qnanResult := true }
    else e
  if e.qnanResult then { e with invalid := true, resultClass := .nan } else e

end Special

/-! ## The control of a cycle -/

section Control

variable (r : Reg) (e : Execute1ToFPU) (multiplyDone : Bool)

/-- The outputs of an instruction have been seen, and are taken back. -/
def outputsSeen : Bool := r.complete || r.doIntr

/-- The defaults, with the fields of an instruction that comes in. -/
def base : Ctl where
  state := r.state
  fpscr := if r.cycle1Ar then setBit (setBit r.fpscr fpscrFr false) fpscrFi false else r.fpscr
  x := r.x
  count := r.count
  regsel := r.regsel
  aDenorm := if e.valid then (adec e).denorm else r.a.denorm
  bDenorm := if e.valid then (bdec e).denorm else r.b.denorm
  cDenorm := if e.valid then (cdec e).denorm else r.c.denorm
  longmask := if e.valid then isArith e && e.single else r.longmask
  addBsmall := !e.valid && r.addBsmall
  tiny := !e.valid && r.tiny
  denorm := !e.valid && r.denorm
  invalidReg := r.invalid
  intOvf := !e.valid && r.intOvf
  divClose := !e.valid && r.divClose
  incQuot := r.incQuot
  instrDone := r.instrDone && !outputsSeen r
  writingFpr := r.writingFpr && !outputsSeen r
  illegalReg := r.illegal && !outputsSeen r
  crResult := r.crResult
  resultSign := if e.valid then startSign e else r.resultSign
  resultClass := if r.cycle1Ar then .finite else r.resultClass

/-- The state machine. -/
def states (c : Ctl) : Ctl :=
  match r.state with
  | .idle => idle c e.valid (isNanInf e) (isZeroDen e) (execState e)
  | .doIllegal => doIllegal c
  | .doSpecial => doSpecial r c
  | .doMcrfs => doMcrfs r c
  | .doMtfsb => doMtfsb r c
  | .doMtfsfi => doMtfsfi r c
  | .doMffs => doMffs r c
  | .doMtfsf => doMtfsf r c
  | .doFmr => doFmr c
  | .doFmrg => doFmrg c
  | .doFcmp => doFcmp r c
  | .doFtdiv => doFtdiv r c
  | .doFtsqrt => doFtsqrt c
  | .doFcfid => doFcfid r c
  | .doFcti => doFcti r c
  | .doFrsp => doFrsp c
  | .doFrsp2 => doFrsp2 r c
  | .doFri => doFri r c
  | .doFadd => doFadd r c
  | .doFmul => doFmul c
  | .doFdiv => doFdiv c
  | .doFsqrt => doFsqrt r c
  | .doFmadd => doFmadd r c
  | .doFre => doFre c
  | .doFsel => doFsel r c
  | .doIdivmod => doIdivmod r c
  | .fri1 => fri1 c
  | .add1 => add1 c
  | .addShift => addShift r c
  | .add2 => add2 c
  | .add2b => add2b c
  | .add3 => add3 r c
  | .cmp1 => cmp1 c
  | .cmp2 => cmp2 c
  | .mult1 => mult1 r c multiplyDone
  | .fmadd0 => fmadd0 r c multiplyDone
  | .fmadd1 => fmadd1 c
  | .fmadd2 => fmadd2 c
  | .fmadd3 => fmadd3 c
  | .fmadd4 => fmadd4 r c multiplyDone
  | .fmadd5 => fmadd5 r c
  | .fmadd6 => fmadd6 r c
  | .div2 => div2 r c multiplyDone
  | .div3 => div3 r c multiplyDone
  | .div4 => div4 r c multiplyDone
  | .div5 => div5 r c multiplyDone
  | .div6 => div6 r c
  | .fre1 => fre1 c
  | .sqrtOdd => sqrtOdd c
  | .rsqrt1 => rsqrt1 c
  | .ftdiv1 => ftdiv1 r c
  | .sqrt1 => sqrt1 c
  | .sqrt2 => sqrt2 c
  | .sqrt3 => sqrt3 r c multiplyDone
  | .sqrt4 => sqrt4 r c multiplyDone
  | .sqrt5 => sqrt5 c
  | .sqrt6 => sqrt6 r c multiplyDone
  | .sqrt7 => sqrt7 r c multiplyDone
  | .sqrt8 => sqrt8 r c multiplyDone
  | .sqrt9 => sqrt9 r c multiplyDone
  | .sqrt10 => sqrt10 c
  | .sqrt11 => sqrt11 r c multiplyDone
  | .sqrt12 => sqrt12 r c
  | .intShift => intShift c
  | .intRound => intRound r c
  | .intIshift => intIshift c
  | .intFinal => intFinal r c
  | .intCheck => intCheck r c
  | .intOflow => intOflow c
  | .finish => finish r c
  | .normalize => normalize r c
  | .roundUflow => roundUflow r c
  | .roundOflow => roundOflow r c
  | .rounding => rounding r c
  | .roundInc => roundInc c
  | .rounding2 => rounding2 r c
  | .rounding3 => rounding3 r c
  | .denorm => denorm c
  | .renormA => renormA c
  | .renormB => renormB c
  | .renormC => renormC c
  | .renorm1 => renorm1 r c
  | .renorm2 => renorm2 r c
  | .idivNormb => idivNormb c
  | .idivNormb2 => idivNormb2 c
  | .idivNormb3 => idivNormb3 c
  | .idivClza => idivClza c
  | .idivClza2 => idivClza2 c
  | .idivClza3 => idivClza3 r c
  | .idivNr0 => idivNr0 r c
  | .idivNr1 => idivNr1 r c multiplyDone
  | .idivNr2 => idivNr2 r c multiplyDone
  | .idivUse05 => idivUse05 c
  | .idivDodiv => idivDodiv r c
  | .idivSh32 => idivSh32 c
  | .idivDiv => idivDiv r c multiplyDone
  | .idivDiv2 => idivDiv2 c
  | .idivDiv3 => idivDiv3 r c multiplyDone
  | .idivDiv4 => idivDiv4 r c
  | .idivDiv5 => idivDiv5 c multiplyDone
  | .idivDiv6 => idivDiv6 c
  | .idivDiv7 => idivDiv7 c
  | .idivDiv8 => idivDiv8 r c multiplyDone
  | .idivDiv9 => idivDiv9 r c
  | .idivExtTbh => idivExtTbh c
  | .idivExtTbh2 => idivExtTbh2 c
  | .idivExtTbh3 => idivExtTbh3 c
  | .idivExtTbh4 => idivExtTbh4 c
  | .idivExtTbh5 => idivExtTbh5 c
  | .idivExtdiv => idivExtdiv c
  | .idivExtdiv1 => idivExtdiv1 c
  | .idivExtdiv2 => idivExtdiv2 r c multiplyDone
  | .idivExtdiv3 => idivExtdiv3 c
  | .idivExtdiv4 => idivExtdiv4 r c multiplyDone
  | .idivExtdiv5 => idivExtdiv5 r c
  | .idivExtdiv6 => idivExtdiv6 r c
  | .idivModadj => idivModadj r c
  | .idivModadjNeg => idivModadjNeg c
  | .idivModsub => idivModsub r c
  | .idivDivadj => idivDivadj r c
  | .idivOvfchk => idivOvfchk r c
  | .idivDone => idivDone c
  | .idivZero => idivZero c

/-- The special cases, in the second cycle of an arithmetic instruction. -/
def specialCases (c : Ctl) : Ctl :=
  if r.cycle1Ar then
    let sc := scinfo r
    let c :=
      { c with
        fpscr := r.fpscr ||| sc.newFpscr
        invalid := sc.invalid
        zeroDivide := sc.zeroDivide
        qnanResult := sc.qnanResult }
    if sc.immedResult then
      { c with
        arithDone := true
        setR := true
        opselR := .misc
        opselSel := sc.resultSel
        miscSel :=
          if sc.qnanResult then if !r.i.intResult then .qnan else .intLimit else .operand
        rsgnOp := sc.rsgnOp
        resultClass := sc.resultClass
        reSel2 := if sc.resultSel = .b then .b else c.reSel2
        reSel1 := if sc.resultSel = .b then c.reSel1 else .a
        reSetResult := true }
    else c
  else c

/-- All that the state and the special cases assign. -/
def ctl : Ctl := specialCases r (states r e multiplyDone (base r e))

end Control

/-! ## The sign, the class and the end of an arithmetic instruction -/

section Arithmetic

variable (r : Reg) (c : Ctl)

/-- The sign of the operand that is selected. -/
def selectedSign : Bool :=
  match c.opselSel with
  | .a => r.a.negative
  | .b => r.b.negative
  | .c => r.c.negative
  | _ => r.resultSign

/-- `rsign` after `rsgn_op`. -/
def rsgn : Bool :=
  match c.rsgnOp with
  | .sel => selectedSign r c
  | .sub => r.resultSign ^^ r.i.isSubtract
  | .inv => !r.resultSign
  | .nop => r.resultSign

/-- `v.result_sign`. -/
def nextResultSign : Bool := if c.rsgnOp = .nop then c.resultSign else rsgn r c

/-- R and S are zero. -/
def resultZero : Bool := r.r.extractLsb' 0 (unitBit + 3) == 0 && !sNz r

/-- An overflow is delivered as infinity. -/
def roundsToInf : Bool :=
  r.i.roundMode.extractLsb' 0 2 == 0b00 ||
    (r.i.roundMode.getLsbD 1 && r.i.roundMode.getLsbD 0 == r.resultSign)

/-- `v.result_class`. -/
def nextResultClass : NumberClass :=
  match c.rclsOp with
  | .sel =>
    match c.opselSel with
    | .a => r.a.numClass
    | .b => r.b.numClass
    | .c => r.c.numClass
    | _ => c.resultClass
  | .tzero => if resultZero r then .zero else c.resultClass
  | .tinf => if !r.fpscr.getLsbD fpscrOe && roundsToInf r then .infinity else c.resultClass
  | .nop => c.resultClass

/-- `v.fpscr` after `rcls_op`. -/
def classFpscr : BitVec 32 :=
  if decide (c.rclsOp = .tinf) && !r.fpscr.getLsbD fpscrOe then
    setBit c.fpscr fpscrFr (roundsToInf r)
  else c.fpscr

/-- `arith_done`. -/
def arithDone : Bool := c.arithDone || (decide (c.rclsOp = .tzero) && resultZero r)

/-- `v.invalid`. -/
def nextInvalid : Bool := c.invalidReg || c.invalid

/-- An arithmetic instruction ends and no enabled invalid-operation or zero-divide exception keeps
it from writing its result. -/
def delivers : Bool :=
  arithDone r c && (!(nextInvalid c && r.fpscr.getLsbD fpscrVe) &&
    !(c.zeroDivide && r.fpscr.getLsbD fpscrZe))

/-- `rsign`. -/
def rsign : Bool :=
  let s := if c.qnanResult then false else rsgn r c
  if arithDone r c then
    let s :=
      if r.i.isSubtract && decide (nextResultClass r c = .zero) then
        r.i.roundMode.getLsbD 0 && r.i.roundMode.getLsbD 1
      else s
    if r.i.negate && !decide (nextResultClass r c = .nan) then !s else s
  else s

/-- `v.instr_done`. -/
def nextInstrDone : Bool := c.instrDone || arithDone r c

/-- `update_fx`. -/
def updateFx : Bool := c.updateFx || arithDone r c

end Arithmetic

/-! ## The data path -/

section DataPath

variable (r : Reg) (c : Ctl) (inverseEst : BitVec 19) (mul : MultiplyOutput)

/-- The lookup table's value as a mantissa. -/
def lutValue : BitVec 64 := inverseEst.setWidth 64 <<< (unitBit - 19)

/-- `f_to_multiply.data1`. -/
def data1 : BitVec 64 :=
  match c.msel1 with
  | .a => r.a.mantissa
  | .b => r.b.mantissa
  | .y => r.y
  | .r => r.r

/-- `f_to_multiply.data2`. -/
def data2 : BitVec 64 :=
  match c.msel2 with
  | .c => r.c.mantissa
  | .lut => lutValue inverseEst
  | .p => r.p
  | .r => r.r

/-- `maddend`. -/
def maddend : BitVec 128 :=
  match c.mselAdd with
  | .const =>
    if !r.i.isSqrt then setBit 0 (2 * unitBit + 1) true
    else setBits 0 (2 * unitBit - 1) (0b11 : BitVec 2)
  | .a => r.aHi ++ (r.a.mantissa ++ r.aLo)
  | .rs => 0#8 ++ (r.r ++ r.s)
  | .zero => 0

/-- `f_to_multiply`. -/
def toMultiply : MultiplyInput :=
  ⟨c.multiplyValid, data1 r c, data2 r c inverseEst, maddend r c, false, c.mselInv⟩

/-- The bit of R that a shift is taken to lose: a difference of 13 bits. -/
def mshift : Int :=
  let m := Int.bmod ((if r.longmask then 28 else -1) - r.shift) (2 ^ 13)
  if 64 ≤ m then 63 else m

/-- `v.x`, before the sticky bits of S. -/
def xShift : Bool :=
  if c.setX && decide (0 ≤ mshift r) then c.x || r.r.getLsbD (mshift r).toNat else c.x

/-- `in_a` before an inversion, and the sign of the operand. -/
def inA0 : BitVec 64 × Bool :=
  match c.opselA with
  | .a => (r.a.mantissa, r.a.negative)
  | .b => (r.b.mantissa, r.b.negative)
  | .c => (r.c.mantissa, false)
  | .ps8 => ((r.p.extractLsb' 0 8).signExtend 64, false)
  | .rndB32 => (setBit 0 32 (r.resultSign && r.i.singlePrec), false)
  | .rndRbit => (setBit 0 dpRbit true, false)
  | .rnd => (setBit (setBit 0 spLsb r.i.singlePrec) dpLsb (!r.i.singlePrec), false)
  | .zero => (0, false)

/-- The carry in before the inversions. -/
def ci0 : Bool :=
  match c.opselC with
  | .subext => r.i.isSubtract && r.x
  | .absext => r.r.getLsbD 63 && (sNz r || r.x)
  | .inc => true
  | .round => r.fpscr.getLsbD fpscrFr
  | .rndx => r.x
  | .rndq => r.incQuot
  | .zero => false

/-- Whether the A input is inverted. -/
def aneg : Bool := c.opselAneg || (c.opselAabs && r.i.isSigned && (inA0 r c).2)

/-- Whether the B input is inverted. -/
def bneg : Bool :=
  match c.opselB with
  | .r => false
  | .minusr => true
  | .absr => r.r.getLsbD 63
  | .addsubr => r.i.isSubtract
  | .rsignr => r.resultSign
  | .zero => false

/-- `in_a`. -/
def inA : BitVec 64 := if aneg r c then ~~~(inA0 r c).1 else (inA0 r c).1

/-- `in_b`. -/
def inB : BitVec 64 :=
  let b := if c.opselB = .zero then 0 else r.r
  if bneg r c then ~~~b else b

/-- `ci`. -/
def ci : Bool := ci0 r c ^^ aneg r c ^^ bneg r c

/-- `shift_res`. -/
def shiftRes : BitVec 64 :=
  if -64 ≤ r.shift ∧ r.shift ≤ 63 then
    shifter64 ((r.r.extractLsb' 1 63 ++ BitVec.ofBool (c.shiftin0 || r.r.getLsbD 0)) ++
      (BitVec.ofBool (c.shiftin || r.s.getLsbD 55) ++ r.s.extractLsb' 0 55))
        (BitVec.ofInt 7 r.shift)
  else 0

/-- `sum`. -/
def sum : BitVec 64 :=
  let s := inA r c + inB r c + (BitVec.ofBool (ci r c)).setWidth 64
  if c.opselMask then
    let s := setBits s 0 (0 : BitVec dpLsb)
    if r.i.singlePrec then setBits s dpLsb (0 : BitVec (spLsb - dpLsb)) else s
  else s

/-- The largest or smallest integer that a conversion can deliver. -/
def intLimit : BitVec 64 :=
  if !r.resultSign && !decide (r.b.numClass = .nan) then
    let misc :=
      setBit (0x000000007fffffff : BitVec 64) 31 (r.i.insn.getLsbD 8 || r.i.insn.getLsbD 9)
    let misc := setBits misc 32 (if r.i.insn.getLsbD 9 then BitVec.allOnes 31 else 0)
    setBit misc 63 (r.i.insn.getLsbD 8 && r.i.insn.getLsbD 8)
  else if !r.i.insn.getLsbD 8 then
    let misc := setBit (0 : BitVec 64) 63 true
    if !r.i.insn.getLsbD 9 then setBits misc 31 (BitVec.allOnes 32) else misc
  else 0

/-- `misc`. -/
def misc : BitVec 64 :=
  match c.miscSel with
  | .zero => 0
  | .qnan => setBit 0 qnanBit true
  | .maxNumber =>
    setBits (setBits 0 spLsb (BitVec.allOnes (unitBit - spLsb + 1))) dpLsb
      (if !r.i.singlePrec then BitVec.allOnes (spLsb - dpLsb) else 0)
  | .fpscr => 0#32 ++ (r.fpscr &&& c.fpscrMask)
  | .fmrg =>
    if !r.i.insn.getLsbD 8 then r.a.mantissa.extractLsb' 0 32 ++ r.b.mantissa.extractLsb' 0 32
    else r.a.mantissa.extractLsb' 32 32 ++ r.b.mantissa.extractLsb' 32 32
  | .lut => lutValue inverseEst
  | .intLimit => intLimit r
  | .operand =>
    match c.opselSel with
    | .a => r.a.mantissa
    | .b => r.b.mantissa
    | .c => r.c.mantissa
    | _ => 0

/-- `result`. -/
def result : BitVec 64 :=
  match c.opselR with
  | .sum => sum r c
  | .shift => shiftRes r c
  | .mult =>
    let m := mul.result.extractLsb' unitBit 64
    if c.multMask then setBits m 0 (0 : BitVec 2) else m
  | .misc => misc r c inverseEst

/-- `v.s` and the sticky bit that goes with it. -/
def nextS : BitVec 56 × Bool :=
  if c.setS then
    match c.opselS with
    | .neg => (~~~r.s + (BitVec.ofBool (!r.x)).setWidth 56, xShift r c)
    | .mult => (mul.result.extractLsb' 0 56, xShift r c)
    | .shift =>
      ((shiftRes r c).extractLsb' 8 56, xShift r c || (shiftRes r c).extractLsb' 0 8 != 0)
    | .zero => (0, xShift r c)
  else (r.s, xShift r c)

/-- `v.p`. -/
def nextP : BitVec 64 :=
  if mul.valid then
    if !c.pshift then mul.result.extractLsb' 0 64 else mul.result.extractLsb' unitBit 64
  else r.p

/-- `set_a`, `set_b` and `set_c`, with the operand that `regsel` names. -/
def setOperand (sel : AIn) (set : Bool) : Bool := set || (c.setRegInd && decide (r.regsel = sel))

/-- The ones' complement of an exponent. -/
def notExp (neg : Bool) (x : Int) : Int := if neg then -x - 1 else x

/-- `rexp_sum`. -/
def rexpSum : Int :=
  let in1 : Int :=
    match c.reSel1 with
    | .r => r.resultExp
    | .a => r.a.exponent
    | .bhalf => r.b.exponent / 2
    | .zero => 0
  let in2 : Int :=
    match c.reSel2 with
    | .ne => newExp r
    | .c => r.c.exponent
    | .b => r.b.exponent
    | .con =>
      match c.reCon2 with
      | .unit => unitBit
      | .max => maxExp r
      | .bias => biasExp r
      | .zero => 0
  notExp c.reNeg1 in1 + notExp c.reNeg2 in2 + if c.reNeg1 || c.reNeg2 then 1 else 0

/-- `v.shift`. -/
def nextShift : Int :=
  if c.rsNorm then
    let clz := countLeftZeroes r.r
    let clz := if c.renormSqrt then setBit clz 0 true else clz
    clz.toNat - (63 - unitBit : Nat)
  else
    let in1 : Int :=
      match c.rsSel1 with
      | .b => r.b.exponent
      | .ne => newExp r
      | .s => r.shift
      | .zero => 0
    let in2 : Int :=
      match c.rsSel2 with
      | .a => r.a.exponent
      | .con =>
        match c.rsCon2 with
        | .one => 1
        | .unit52 => (unitBit - 52 : Nat)
        | .sixtyFourUnit => (64 - unitBit : Nat)
        | .thirtyTwo => 32
        | .fiftyTwo => 52
        | .unit => unitBit
        | .sixtyThree => 63
        | .sixtyFour => 64
        | .minexp => minExp r
        | .zero => 0
    notExp c.rsNeg1 in1 + notExp c.rsNeg2 in2 + if c.rsNeg1 || c.rsNeg2 then 1 else 0

end DataPath

/-! ## The condition register -/

section ConditionRegister

variable (r : Reg) (c : Ctl)

/-- Less, greater, equal and unordered, from the parts of the operands. -/
def compare : BitVec 4 :=
  let lessIf (b : Bool) : BitVec 4 := BitVec.ofBool b ++ (BitVec.ofBool (!b) ++ 0b00#2)
  if r.a.numClass = .nan ∨ r.b.numClass = .nan then 0b0001
  else if r.a.numClass = .zero ∧ r.b.numClass = .zero then 0b0010
  else if r.a.negative != r.b.negative then
    BitVec.ofBool r.a.negative ++ (BitVec.ofBool r.b.negative ++ 0b00#2)
  else if r.a.numClass = .infinity ∧ r.b.numClass = .infinity then 0b0010
  else if r.a.numClass = .zero then lessIf (!r.b.negative)
  else if r.a.numClass = .infinity then lessIf r.a.negative
  else if r.b.numClass = .zero then lessIf r.a.negative
  else if r.b.numClass = .infinity then lessIf (!r.b.negative)
  else if r.b.exponent < r.a.exponent then lessIf r.a.negative
  else if r.a.exponent ≠ r.b.exponent then lessIf (!r.a.negative)
  else if r.r.getLsbD 63 then lessIf (!r.a.negative)
  else if !(rHiNz r || rLoNz r) then 0b0010
  else lessIf r.a.negative

/-- The result of a test for division. -/
def ftdivResult : BitVec 4 :=
  let bInf := decide (r.b.numClass = .infinity)
  let bZero := decide (r.b.numClass = .zero)
  let aInf := decide (r.a.numClass = .infinity)
  let fg :=
    aInf || bZero || bInf || (decide (r.b.numClass = .finite) && r.b.denorm)
  let fe :=
    decide (r.a.numClass = .nan) || aInf || decide (r.b.numClass = .nan) || bZero || bInf ||
      decide (r.a.numClass = .finite ∧ r.a.exponent ≤ -970) ||
      (r.doingFtdiv.getLsbD 1 && (expTiny r || expHuge r))
  0b0#1 ++ (BitVec.ofBool fg ++ (BitVec.ofBool fe ++ 0b0#1))

/-- The result of a test for a square root. -/
def ftsqrtResult : BitVec 4 :=
  let bInf := decide (r.b.numClass = .infinity)
  let bZero := decide (r.b.numClass = .zero)
  let fg := bZero || bInf || (decide (r.b.numClass = .finite) && r.b.denorm)
  let fe :=
    decide (r.b.numClass = .nan) || bInf || bZero || r.b.negative || decide (r.b.exponent ≤ -970)
  0b0#1 ++ (BitVec.ofBool fg ++ (BitVec.ofBool fe ++ 0b0#1))

/-- `v.xerc_result`. -/
def xercResult : Execute1.XerCommon :=
  if c.crOp = .intres then
    if r.i.oe then
      { r.i.xerc with ov := r.intOvf, ov32 := r.intOvf, so := r.i.xerc.so || r.intOvf }
    else r.i.xerc
  else r.xercResult

/-- The signs of an integer result. -/
def intResultCr : BitVec 4 :=
  let msb := if !r.i.m32b then r.r.getLsbD 63 else r.r.getLsbD 31
  let zero := if !r.i.m32b then r.r == 0 else r.r.extractLsb' 0 32 == 0
  BitVec.ofBool msb ++ (BitVec.ofBool (!zero && !msb) ++ (BitVec.ofBool zero ++
    BitVec.ofBool (xercResult r c).so))

/-- `cr_result`. -/
def crResult : BitVec 4 :=
  match c.crOp with
  | .fcmp => compare r
  | .mcrfs => r.fpscr.extractLsb' (nibble (insnBfa r.i.insn)) 4
  | .ftdiv => ftdivResult r
  | .ftsqrt => ftsqrtResult r
  | .intres => intResultCr r c
  | .none => 0

/-- The summary bits of an FPSCR: VX, FEX and, if `fx` is set, FX. -/
def summarize (fx : Bool) (oldExc : BitVec 5) (f : BitVec 32) : BitVec 32 :=
  let f := setBit f fpscrVx (f.extractLsb' fpscrVxvc 6 != 0 || f.extractLsb' fpscrVxcvi 3 != 0)
  let f := setBit f fpscrFex (f.extractLsb' fpscrXx 5 &&& f.extractLsb' fpscrXe 5 != 0)
  if fx && f.extractLsb' fpscrXx 5 &&& ~~~oldExc != 0 then setBit f fpscrFx true else f

/-- `v.fpscr`, with the FPRF of the last instruction and the summary bits. -/
def nextFpscr : BitVec 32 :=
  let f := if c.setFpcc then setBits (classFpscr r c) fpscrFu (crResult r c) else classFpscr r c
  let f :=
    if r.updateFprf then
      setBits f fpscrFu (resultFlags r.resSign r.resultClass (r.r.getLsbD unitBit && !r.denorm))
    else f
  summarize (updateFx r c) r.oldExc f

end ConditionRegister

/-! ## A rising edge -/

section Step

variable (r : Reg) (e : Execute1ToFPU) (inverseEst : BitVec 19) (mul : MultiplyOutput)

/-- An operand that the state may overwrite. -/
def nextOperand (v : FpuReg) (denorm setExp setMant : Bool) (shiftRes : BitVec 64) : FpuReg :=
  { v with
    denorm := denorm
    exponent := if setExp then newExp r else v.exponent
    mantissa := if setMant then shiftRes else v.mantissa }

/-- The instruction ends in this cycle. -/
def ends (c : Ctl) : Bool := nextInstrDone r c && !decide (r.state = .idle)

/-- `v.illegal`. -/
def nextIllegal (c : Ctl) : Bool := if ends r c then c.illegal else c.illegalReg

/-- An instruction comes in. -/
def accepts : Bool := decide (r.state = .idle) && e.valid

/-- `rin`, for given assignments of the state. -/
def rinOf (c : Ctl) : Reg where
  i := if e.valid then captured e r.fpscr else r.i
  state := if ends r c then .idle else c.state
  execState := if accepts r e then execState e else r.execState
  isNanInf := if accepts r e then isNanInf e else r.isNanInf
  busy := !ends r c && (accepts r e || r.busy)
  f2stall :=
    !ends r c && ((!nextInstrDone r c && !decide (r.state = .idle) && !e.stall) || r.f2stall)
  instrDone := nextInstrDone r c
  complete := nextInstrDone r c && !e.stall && !nextIllegal r c
  doIntr :=
    nextInstrDone r c && !e.stall &&
      (((nextFpscr r c).getLsbD fpscrFex && r.i.feMode) || nextIllegal r c)
  illegal := nextIllegal r c
  cycle1Ar := e.valid && isArith e
  first := c.first
  count := c.count
  doingFtdiv := c.doingFtdiv
  regsel := c.regsel
  fpscr := nextFpscr r c
  commFpscr := if outputsSeen r then r.fpscr else r.commFpscr
  oldExc := if r.state = .idle then r.fpscr.extractLsb' fpscrXx 5 else r.oldExc
  a := nextOperand r (if e.valid then adec e else r.a) c.aDenorm
    (setOperand r c .a c.setA || c.setAExp) (setOperand r c .a c.setA || c.setAMant) (shiftRes r c)
  b := nextOperand r (if e.valid then bdec e else r.b) c.bDenorm
    (setOperand r c .b c.setB) (setOperand r c .b c.setB || c.setBMant) (shiftRes r c)
  c := nextOperand r (if e.valid then cdec e else r.c) c.cDenorm
    (setOperand r c .c c.setC) (setOperand r c .c c.setC) (shiftRes r c)
  r := if c.setR then result r c inverseEst mul else r.r
  s := (nextS r c mul).1
  x := (nextS r c mul).2
  p := nextP r c mul
  y := if c.setY then data2 r c inverseEst else r.y
  aHi := if e.valid then 0 else if c.setAHi then r.r.extractLsb' 56 8 else r.aHi
  aLo := if e.valid then 0 else if c.setALo then r.r.extractLsb' 0 56 else r.aLo
  resultSign := nextResultSign r c
  resultClass := nextResultClass r c
  resultExp := if c.reSetResult then rexpSum r c else r.resultExp
  shift := nextShift r c
  longmask := c.longmask
  addBsmall := c.addBsmall
  tiny := c.tiny
  denorm := c.denorm
  invalid := nextInvalid c
  intOvf := c.intOvf
  divClose := c.divClose
  incQuot := c.incQuot
  updateFprf := delivers r c
  spResult := if ends r c then r.i.singlePrec else r.spResult
  resInt := if ends r c then r.i.intResult || r.i.integerOp else r.resInt
  resSign := if ends r c then rsign r c else r.resSign
  nsnanResult := if ends r c then r.i.quietenNan else r.nsnanResult
  writingFpr := c.writingFpr || delivers r c
  writingCr := if ends r c then r.i.isCmp || r.i.rc else r.writingCr && !outputsSeen r
  writingXer :=
    (decide (c.crOp = .intres) && r.i.oe) || (r.writingXer && !outputsSeen r)
  writeReg := if ends r c then r.i.destFpr else r.writeReg
  completeTag := if ends r c then r.i.instrTag else r.completeTag
  crResult :=
    if ends r c && r.i.fpRc then (nextFpscr r c).extractLsb' fpscrOx 4
    else if c.setCr then crResult r c
    else c.crResult
  crMask :=
    if ends r c then
      numToFxm (if r.i.integerOp then 0 else if !r.i.isCmp then 1 else insnBf r.i.insn)
    else r.crMask
  xercResult := xercResult r c

/-- `rin`. -/
def rin : Reg := rinOf r e inverseEst mul (ctl r e mul.valid)

/-- The registers after a reset or a flush. -/
def flushed (rst : Bool) : Reg :=
  { r with
    state := .idle
    busy := false
    f2stall := false
    instrDone := false
    complete := false
    illegal := false
    doIntr := false
    writingFpr := false
    writingCr := false
    writingXer := false
    fpscr := if rst then 0 else if !r.doIntr then r.commFpscr else 0
    commFpscr := if rst then 0 else r.commFpscr
    writeReg := 0
    completeTag := { r.completeTag with valid := false }
    crMask := 0
    crResult := 0
    i := { r.i with instrTag := { r.i.instrTag with valid := false } }
    execState := .idle }

/-- The address in the lookup table. -/
def lutAddr : BitVec 10 :=
  (if r.i.isSqrt then r.b.mantissa.extractLsb' unitBit 2 else 0) ++
    r.b.mantissa.extractLsb' (unitBit - 8) 8

/-- `fp_result`. -/
def fpResult : BitVec 64 :=
  if r.resInt then r.r
  else packDp r.resSign r.resultClass r.resultExp r.r r.spResult r.nsnanResult

/-- `w_out`. -/
def wOut : FPUToWriteback where
  valid := r.complete
  interrupt := r.doIntr
  instrTag := r.completeTag
  writeEnable := r.writingFpr && r.complete
  writeReg := r.writeReg
  writeData := fpResult r
  writeCrEnable := r.writingCr && r.complete
  writeCrMask := r.crMask
  writeCrData :=
    (r.crResult ++ (r.crResult ++ (r.crResult ++ r.crResult))) ++
      (r.crResult ++ (r.crResult ++ (r.crResult ++ r.crResult)))
  writeXerc := r.writingXer && r.complete
  xerc := r.xercResult
  intrVec := 0x700
  srr1 := setBit (setBit 0 (47 - 44) r.illegal) (47 - 43) (!r.illegal)

end Step

/-- A rising edge of the whole unit. -/
def Machine.step (lut : BitVec 10 → BitVec 18) (u : Machine) (j : Inputs) : Machine where
  reg :=
    if j.rst || j.flushIn then flushed u.reg j.rst else rin u.reg j.eIn u.inverseEst u.multiply.out
  multiply :=
    u.multiply.step (toMultiply u.reg (ctl u.reg j.eIn u.multiply.out.valid) u.inverseEst)
  inverseEst := 0b1#1 ++ lut (lutAddr u.reg)

end Microwatt.Fpu
