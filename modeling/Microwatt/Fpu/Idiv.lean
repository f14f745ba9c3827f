import Microwatt.Fpu.Control

/-!
# The states of integer divisions

The `IDIV` states of `fpu.vhdl`, which divide with the reciprocal of the divisor and correct the
quotient by the remainder.
-/

namespace Microwatt.Fpu

variable (r : Reg) (c : Ctl)

def doIdivmod : Ctl :=
  let c :=
    { c with
      opselA := .b
      opselAabs := true
      opselB := .zero
      setR := true
      reCon2 := .unit
      reSetResult := true }
  if r.b.numClass = .zero then { c with intOvf := true, state := .idivZero }
  else if r.a.numClass = .zero then { c with state := .idivZero }
  else { c with state := .idivNormb }

def idivNormb : Ctl := { c with rsNorm := true, setC := true, state := .idivNormb2 }

def idivNormb2 : Ctl :=
  { c with
    setX := true
    opselR := .shift
    setR := true
    reSel2 := .ne
    reSetResult := true
    state := .idivNormb3 }

def idivNormb3 : Ctl := { c with opselC := .rndx, setR := true, state := .idivClza }

def idivClza : Ctl :=
  { c with
    setB := true
    opselA := .a
    opselAabs := true
    opselB := .zero
    setR := true
    reCon2 := .unit
    reSetResult := true
    state := .idivClza2 }

def idivClza2 : Ctl :=
  { c with
    rsNorm := true
    setAMant := true
    opselA := .c
    opselB := .r
    opselAneg := true
    setR := true
    state := .idivClza3 }

def idivClza3 : Ctl :=
  let close := decide (newExp r = r.b.exponent)
  let c := { c with setAExp := true, reSel2 := .ne, reSetResult := true, divClose := close }
  if r.b.exponent < newExp r ∨ close ∧ !r.r.getLsbD 63 then
    if r.i.divext then { c with intOvf := true, state := .idivZero }
    else { c with state := .idivNr0 }
  else if !r.i.divmod && !r.i.divext then { c with state := .idivZero }
  else { c with state := .idivNr0 }

def idivNr0 : Ctl :=
  let c :=
    { c with
      count := if r.i.divext ∨ 32 ≤ r.resultExp then 0 else if 16 ≤ r.resultExp then 1 else 2
      msel1 := .b
      mselAdd := .const
      mselInv := true
      msel2 := .lut
      setY := true
      opselR := .misc
      miscSel := .qnan
      setR := true }
  if r.b.mantissa.getLsbD (unitBit + 1) then { c with state := .idivUse05 }
  else { c with multiplyValid := true, state := .idivNr1 }

def idivNr1 (multiplyDone : Bool) : Ctl :=
  let c :=
    { c with
      msel1 := .b
      mselAdd := .const
      mselInv := true
      msel2 := .p
      setY := r.first
      pshift := true
      rsCon2 := .sixtyFour }
  let c :=
    if r.first then
      if r.count == 3 then
        if !r.p.getLsbD unitBit && !r.p.getLsbD (unitBit - 1) then { c with state := .idivUse05 }
        else { c with state := .idivDodiv }
      else { c with multiplyValid := r.first }
    else c
  if multiplyDone then { c with first := true, state := .idivNr2 } else c

def idivNr2 (multiplyDone : Bool) : Ctl :=
  let c :=
    { c with
      msel1 := .y
      msel2 := .p
      multiplyValid := r.first
      pshift := true
      count := if r.first then r.count + 1 else c.count }
  if multiplyDone then { c with first := true, state := .idivNr1 } else c

def idivUse05 : Ctl :=
    { c with setY := true, msel2 := .r, rsCon2 := .sixtyFour, state := .idivDodiv }

def idivDodiv : Ctl :=
  let c := { c with opselA := .a, opselB := .zero, setR := true, setBMant := true }
  if !r.i.divext then { c with rsCon2 := .unit, rsNeg2 := true, first := true, state := .idivDiv }
  else if r.i.singlePrec then { c with rsCon2 := .thirtyTwo, state := .idivSh32 }
  else if !r.divClose then { c with rsCon2 := .sixtyFourUnit, state := .idivExtdiv }
  else { c with state := .idivExtTbh }

def idivSh32 : Ctl :=
  { c with
    opselR := .shift
    setR := true
    rsCon2 := .unit
    rsNeg2 := true
    first := true
    state := .idivDiv }

def idivDiv (multiplyDone : Bool) : Ctl :=
  let c :=
    { c with
      setAMant := r.first
      setALo := r.first
      msel1 := .y
      msel2 := .r
      multiplyValid := r.first
      pshift := true
      opselR := .mult
      setR := true
      rsSel1 := .b
      rsNeg1 := true }
  if multiplyDone then { c with state := .idivDiv2 } else c

def idivDiv2 : Ctl :=
  { c with opselR := .shift, setR := true, first := true, state := .idivDiv3 }

/-- `IDIV_DIV3`, `IDIV_DIV8` and the like: the remainder of a quotient. -/
def remainder : Ctl :=
  { c with
    msel1 := .r
    msel2 := .c
    mselAdd := .a
    mselInv := true
    multiplyValid := r.first
    setBMant := r.first
    opselR := .mult
    setR := true
    opselS := .mult
    setS := true }

def idivDiv3 (multiplyDone : Bool) : Ctl :=
  let c := remainder r c
  if multiplyDone then { c with state := .idivDiv4 } else c

/-- What `IDIV_DIV4` and `IDIV_DIV9` have in common. -/
def testRemainder : Ctl :=
  { c with
    msel1 := .y
    msel2 := .p
    incQuot := !pcmpcLt r && !r.i.divmod
    opselA := .b
    opselB := .zero
    setR := !r.i.divmod
    rsCon2 := .unit }

def idivDiv4 : Ctl :=
  let c := testRemainder r c
  if pcmpcLt r || pcmpcEq r then
    if !r.i.divmod then { c with state := .idivDivadj }
    else if pcmpcEq r then { c with state := .idivZero }
    else { c with state := .idivModadj }
  else { c with multiplyValid := true, state := .idivDiv5 }

def idivDiv5 (multiplyDone : Bool) : Ctl :=
  let c := { c with pshift := true, opselR := .mult, setR := true, rsSel1 := .b, rsNeg1 := true }
  if multiplyDone then { c with state := .idivDiv6 } else c

def idivDiv6 : Ctl :=
  { c with opselR := .shift, setR := true, first := true, state := .idivDiv7 }

def idivDiv7 : Ctl :=
  { c with opselA := .b, opselB := .r, setR := true, first := true, state := .idivDiv8 }

def idivDiv8 (multiplyDone : Bool) : Ctl :=
  let c := remainder r c
  if multiplyDone then { c with state := .idivDiv9 } else c

def idivDiv9 : Ctl :=
  let c := testRemainder r c
  if !r.i.divmod then { c with state := .idivDivadj }
  else if pcmpcEq r then { c with state := .idivZero }
  else { c with state := .idivModadj }

def idivExtTbh : Ctl :=
  { c with
    opselA := .c
    opselB := .zero
    setR := true
    rsSel1 := .b
    rsNeg1 := true
    rsCon2 := .sixtyThree
    state := .idivExtTbh2 }

def idivExtTbh2 : Ctl :=
  { c with
    opselA := .a
    opselB := .zero
    setR := true
    setBMant := true
    rsCon2 := .sixtyFourUnit
    state := .idivExtTbh3 }

def idivExtTbh3 : Ctl :=
  { c with
    setAHi := true
    setAMant := true
    rsSel1 := .b
    rsNeg1 := true
    rsCon2 := .sixtyFour
    state := .idivExtTbh4 }

def idivExtTbh4 : Ctl :=
  { c with opselR := .shift, setR := true, rsCon2 := .sixtyThree, state := .idivExtTbh5 }

def idivExtTbh5 : Ctl :=
  { c with
    opselA := .b
    opselB := .r
    opselAneg := true
    setR := true
    shiftin0 := true
    setBMant := true
    first := true
    state := .idivExtdiv2 }

def idivExtdiv : Ctl :=
  { c with
    setAHi := true
    setAMant := true
    rsSel1 := .b
    rsNeg1 := true
    rsCon2 := .sixtyFour
    state := .idivExtdiv1 }

def idivExtdiv1 : Ctl :=
  { c with opselR := .shift, setR := true, first := true, state := .idivExtdiv2 }

def idivExtdiv2 (multiplyDone : Bool) : Ctl :=
  let c :=
    { c with
      msel1 := .y
      msel2 := .r
      multiplyValid := r.first
      pshift := true
      opselR := .mult
      setR := true }
  if multiplyDone then { c with first := true, state := .idivExtdiv3 } else c

def idivExtdiv3 : Ctl :=
  { c with opselA := .b, opselB := .r, setR := true, first := true, state := .idivExtdiv4 }

def idivExtdiv4 (multiplyDone : Bool) : Ctl :=
  let c := { remainder r c with rsSel1 := .b, rsNeg1 := true, rsCon2 := .unit }
  if multiplyDone then { c with state := .idivExtdiv5 } else c

def idivExtdiv5 : Ctl :=
  { c with opselR := .shift, setR := true, incQuot := !pcmpcLt r, state := .idivExtdiv6 }

def idivExtdiv6 : Ctl :=
  let c :=
    { c with
      opselA := .b
      opselB := .zero
      setR := false
      msel1 := .y
      msel2 := .r
      pshift := true }
  if rGt1 r then { c with multiplyValid := true, state := .idivExtdiv2 }
  else { c with setR := true, state := .idivDivadj }

def idivModadj : Ctl :=
  let c := { c with opselR := .shift, setR := true }
  if !pcmpcLt r then { c with state := .idivModsub }
  else if !r.resultSign then { c with state := .idivDone }
  else { c with state := .idivModadjNeg }

def idivModadjNeg : Ctl := { c with opselB := .minusr, setR := true, state := .idivOvfchk }

def idivModsub : Ctl :=
  { c with
    opselA := .c
    opselAneg := true
    opselB := .r
    setR := true
    state := if !r.resultSign then .idivDone else .idivDivadj }

def idivDivadj : Ctl :=
  { c with
    opselA := .rndB32
    opselB := .rsignr
    opselC := .rndq
    setR := true
    state := if !r.i.isSigned then .idivDone else .idivOvfchk }

def idivOvfchk : Ctl :=
  let signBit := if !r.i.singlePrec then r.r.getLsbD 63 else r.r.getLsbD 31
  { c with
    opselR := .misc
    miscSel := .zero
    intOvf := signBit ^^ r.resultSign
    setR := signBit ^^ r.resultSign
    state := .idivDone }

def idivDone : Ctl :=
    { c with crOp := .intres, setCr := true, writingFpr := true, instrDone := true }

def idivZero : Ctl := { c with opselR := .misc, miscSel := .zero, setR := true, state := .idivDone }

end Microwatt.Fpu
