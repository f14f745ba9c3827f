import Microwatt.Execute1.Stage1

/-!
# What an instruction asks for

The process `execute1_actions`: from the decoded instruction, its operands and the control
registers to the results, side effects and exceptions of the instruction.
-/

namespace Microwatt.Execute1

/-- `insn_type_t`. -/
inductive InsnOp where
  | illegal | nop | add | attn | b | bc | bcreg | bperm | bsort | cmp | compute | countb | darn
  | dcbf | dcbst | dcbz | icbi | icbt | fpCmp | fpArith | fpMove | fpMisc | div | dive | mod
  | isync | load | store | mcrxrx | mfmsr | mfspr | msg | mtcrf | mtmsrd | mtspr | mulL64
  | mulH64 | mulH32 | rfid | sc | sync | tlbie | trap | wait | fetchFailed
deriving DecidableEq

/-- What the trace interrupt remembers of an instruction. -/
def InsnOp.kind : InsnOp → InsnType
  | .load => .load
  | .store => .store
  | .icbi => .icbi
  | .icbt => .icbt
  | .dcbf => .dcbf
  | .dcbz => .dcbz
  | _ => .other

/-- `unit_t`. -/
inductive ExecUnit where
  | alu | ldst | fpu
deriving DecidableEq

/-- `carry_in_t`. -/
inductive CarryIn where
  | zero | ca | ov | one
deriving DecidableEq

/-- `result_sel_t`. -/
inductive ResultSel where
  | add | log | rot | un3 | mcyc | spr | un6 | msc
deriving DecidableEq

/-- `Decode2ToExecute1Type`, less what only the data path reads. -/
structure Decoded where
  valid : Bool
  unit : ExecUnit
  /-- `fac = FPU`. -/
  facFpu : Bool
  op : InsnOp
  nia : BitVec 64
  instrTag : InstrTag
  writeReg : BitVec 6
  writeRegEnable : Bool
  readData2 : BitVec 64
  readData3 : BitVec 64
  cr : BitVec 32
  lr : Bool
  rc : Bool
  oe : Bool
  inputCarry : CarryIn
  outputCarry : Bool
  outputCr : Bool
  outputXer : Bool
  is32bit : Bool
  insn : BitVec 32
  brPred : Bool
  resultSel : ResultSel
  subSelect : BitVec 3
  second : Bool
  sprSelect : SprId
  sprIsRam : Bool
  ramsprOddRdaddr : BitVec 3
  ramsprWraddr : BitVec 3
  ramsprWriteEven : Bool
  ramsprWriteOdd : Bool
  decCtr : Bool
  privileged : Bool
  prefixed : Bool
  insnPrefix : BitVec 26
  illegalSuffix : Bool
  misalignedPrefix : Bool
  illegalForm : Bool
  usesTar : Bool
  usesDscr : Bool

/-- The part that the first stage itself reads. -/
def Decoded.toStage (e : Decoded) : Decode2ToExecute1 where
  valid := e.valid
  insnType := e.op.kind
  second := e.second
  oe := e.oe
  sprSelect := e.sprSelect
  subSelect := e.subSelect
  ramsprWraddr := e.ramsprWraddr
  lr := e.lr
  prefixed := e.prefixed
  insn := e.insn
  insnPrefix := e.insnPrefix
  selMcyc := e.resultSel == .mcyc

/-- Results of the data path that `execute1_actions` uses. -/
structure Datapath where
  carry32 : Bool
  carry64 : Bool
  overflow32 : Bool
  overflow64 : Bool
  rotatorCarry : Bool
  trapval : BitVec 5
  writeCrData : BitVec 32
  writeCrMask : BitVec 8
  xercIn : XerCommon

/-- `ctrl_t`, less the DEXCR bits. -/
structure Ctrl where
  waitState : Bool
  run : Bool
  dec : BitVec 64
  msr : BitVec 64
  cfar : BitVec 64
  xerLow : BitVec 18
  fscrIc : BitVec 4
  fscrPref : Bool
  fscrScv : Bool
  fscrTar : Bool
  fscrDscr : Bool
  heir : BitVec 64
  dscr : BitVec 25
  ciabr : BitVec 64
  lpcrHail : Bool
  lpcrEvirt : Bool
  lpcrLd : Bool
  lpcrHeic : Bool
  lpcrLpes : Bool
  lpcrHvice : Bool
deriving DecidableEq

/-! ## Bits of the MSR -/

def msrSF : Nat := 63 - 0
def msrHV : Nat := 63 - 3
def msrFP : Nat := 63 - 50
def msrFE0 : Nat := 63 - 52
def msrSE : Nat := 63 - 53
def msrBE : Nat := 63 - 54
def msrFE1 : Nat := 63 - 55
def msrIR : Nat := 63 - 58
def msrDR : Nat := 63 - 59
def msrRI : Nat := 63 - 62
def msrLE : Nat := 63 - 63

/-- The word with bit `k` replaced. -/
def setBit (k : Nat) (b : Bool) (v : BitVec 64) : BitVec 64 :=
  if b then v ||| BitVec.twoPow 64 k else v &&& ~~~ BitVec.twoPow 64 k

/-- `old` with bits `hi` down to `lo` taken from `src`. -/
def copyBits (hi lo : Nat) (src old : BitVec 64) : BitVec 64 :=
  let mask := (BitVec.allOnes (hi + 1 - lo)).setWidth 64 <<< lo
  (old &&& ~~~ mask) ||| (src &&& mask)

/-- `MSR[IR]`, `not MSR[PR]`, `not MSR[LE]` and `not MSR[SF]`, as `redir_mode` has them. -/
def redirModeOf (msr : BitVec 64) : BitVec 4 :=
  BitVec.ofBool (msr.getLsbD msrIR) ++ BitVec.ofBool (!msr.getLsbD msrPR) ++
    BitVec.ofBool (!msr.getLsbD msrLE) ++ BitVec.ofBool (!msr.getLsbD msrSF)

/-- What problem state implies. -/
def userBits (msr : BitVec 64) : BitVec 64 :=
  setBit msrDR true (setBit msrIR true (setBit msrEE true msr))

/-- The MSR that `rfid`, `hrfid` and `rfscv` make of the old one and `srr1`. -/
def rfidMsr (msr srr1 : BitVec 64) : BitVec 64 :=
  let v := copyBits 63 61 srr1 msr
  let v := setBit msrHV true v
  let v := copyBits 59 31 srr1 v
  let v := copyBits 26 22 srr1 v
  let v := copyBits 15 0 srr1 v
  if srr1.getLsbD msrPR then userBits v else v

/-- The MSR that `mtmsr` and `mtmsrd` make of the old one and RS. -/
def mtmsrdMsr (l is32bit : Bool) (msr rs : BitVec 64) : BitVec 64 :=
  if l then
    -- just update EE and RI
    setBit msrRI (rs.getLsbD msrRI) (setBit msrEE (rs.getLsbD msrEE) msr)
  else
    let v := if is32bit then msr else copyBits 59 32 rs (copyBits 63 61 rs msr)
    let v := copyBits 31 13 rs v
    let v := copyBits 11 1 rs v
    if rs.getLsbD msrPR then userBits v else v

/-! ## The actions -/

/-- `decode_spr_num`. -/
def decodeSprNum (insn : BitVec 32) : Nat :=
  (insn.extractLsb' 11 5 ++ insn.extractLsb' 16 5).toNat

/-- `ppc_bc_taken`. -/
def ppcBcTaken (bo bi : BitVec 5) (cr : BitVec 32) (ctr : BitVec 64) : Bool :=
  let crbitMatch := cr.getLsbD (31 - bi.toNat) == bo.getLsbD 3
  -- the counter is tested before it is decremented
  let ctrNotZero := ctr != 1
  (bo.getLsbD 2 || (ctrNotZero ^^ bo.getLsbD 1)) && (bo.getLsbD 4 || crbitMatch)

/-- The selectors `SPRSEL_*` of the slow SPRs. -/
inductive SprSel where
  | zero | tb | tbu | dec | pvr | logr | cfar | fscr | lpcr | heir | ctrl | dscr | pir | ciabr
  | dexcr | xer
deriving DecidableEq

/-- The selector with this number. -/
def sprSelOf (n : BitVec 4) : SprSel :=
  match n.toNat with
  | 0 => .zero
  | 1 => .tb
  | 2 => .tbu
  | 3 => .dec
  | 4 => .pvr
  | 5 => .logr
  | 6 => .cfar
  | 7 => .fscr
  | 8 => .lpcr
  | 9 => .heir
  | 10 => .ctrl
  | 11 => .dscr
  | 12 => .pir
  | 13 => .ciabr
  | 14 => .dexcr
  | _ => .xer

/-- What `execute1_actions` works on: the actions so far and its two flags. -/
structure Draft where
  v : Actions
  illegal : Bool
  owait : Bool

variable (hasFpu : Bool) (ctrl : Ctrl) (msr : BitVec 64) (e : Decoded) (dp : Datapath)
  (ramsprOdd : BitVec 64) (fpException : Bool)

/-- `privileged`. -/
def privilegedInsn : Bool :=
  !(e.illegalSuffix || e.illegalForm) && msr.getLsbD msrPR && e.privileged

/-- The carry bits of the result. -/
def carryOut (x : XerCommon) : XerCommon :=
  if e.outputCarry then
    let c32 := if e.resultSel = .add then dp.carry32 else e.resultSel == .rot && dp.rotatorCarry
    let c64 := if e.resultSel = .add then dp.carry64 else e.resultSel == .rot && dp.rotatorCarry
    if e.inputCarry ≠ .ov then { x with ca32 := c32, ca := c64 }
    else { x with ov := dp.carry64, ov32 := dp.carry32 }
  else x

/-- The actions before the type of the instruction is looked at. -/
def defaultActions : Draft where
  v :=
    { e :=
        { Execute1ToWriteback.init with
          writeReg := e.writeReg
          writeEnable := e.writeRegEnable
          rc := e.rc
          writeCrData := dp.writeCrData
          writeCrMask := dp.writeCrMask
          writeCrEnable := e.outputCr || e.rc
          writeXercEnable := e.outputXer
          xerc := carryOut e dp dp.xercIn
          redirMode := redirModeOf msr
          intrVec := 0x700
          altIntr := ctrl.lpcrHail && msr.getLsbD msrIR && msr.getLsbD msrDR
          mode32bit := !msr.getLsbD msrSF
          instrTag := e.instrTag
          lastNia := e.nia }
      se :=
        { SideEffect.init with
          ramsprWriteEven := e.ramsprWriteEven
          ramsprWriteOdd := e.ramsprWriteOdd }
      complete := false
      exception := false
      trap := false
      advanceNia := false
      redirToNext := false
      newMsr := msr
      takeBranch := false
      directBranch := false
      start := .none
      doTrace := msr.getLsbD msrSE
      ciabrTrace := ctrl.ciabr.getLsbD 0 && ctrl.ciabr.getLsbD 1 == !msr.getLsbD msrPR &&
        ctrl.ciabr.extractLsb' 2 62 == e.nia.extractLsb' 2 62
      fpIntr := false
      res2Sel := 0
      sprWriteData := if e.decCtr then ramsprOdd - 1 else e.readData3
      ic := 0 }
  illegal := e.illegalSuffix || e.illegalForm
  owait := false

/-- `set_ov`. -/
def setOv (x : XerCommon) (ov ov32 : Bool) : XerCommon :=
  { x with ov := ov, ov32 := ov32, so := ov || x.so }

/-- An SPR that is not implemented is illegal in user mode, with `LPCR[EVIRT]`, and for a few
numbers. -/
def illegalSpr : Bool :=
  let sprnum := decodeSprNum e.insn
  msr.getLsbD msrPR || ctrl.lpcrEvirt || sprnum == 0 || sprnum == 4 || sprnum == 5 || sprnum == 6

/-- `mfspr`. -/
def mfsprActions (d : Draft) : Draft :=
  if e.sprIsRam then d
  else if e.sprSelect.valid && !e.sprSelect.wonly then
    let v := if e.sprSelect.noop then { d.v with e.writeEnable := false } else d.v
    if !e.sprSelect.ispmu then
      let incLoga := sprSelOf e.sprSelect.sel == .logr && !e.insn.getLsbD 16
      { d with v := { v with se.incLoga := incLoga, res2Sel := 0b10 } }
    else { d with v := { v with res2Sel := 0b11 } }
  else
    { d with
      v := { d.v with e.writeEnable := false }
      illegal := d.illegal || illegalSpr ctrl msr e }

/-- `mtspr` to one of the slow SPRs. -/
def mtsprEffect (v : Actions) : Actions :=
  match sprSelOf e.sprSelect.sel with
  | .xer =>
      { v with
        e := { v.e with xerc :=
          { so := e.readData3.getLsbD (63 - 32)
            ov := e.readData3.getLsbD (63 - 33)
            ca := e.readData3.getLsbD (63 - 34)
            ov32 := e.readData3.getLsbD (63 - 44)
            ca32 := e.readData3.getLsbD (63 - 45) } }
        se := { v.se with writeXerlow := true } }
  | .dec => { v with se.writeDec := true }
  | .logr => { v with se.writeLoga := true }
  | .cfar => { v with se.writeCfar := true }
  | .fscr => { v with se.writeFscr := true }
  | .lpcr => { v with se.writeLpcr := true }
  | .heir => { v with se.writeHeir := true }
  | .ctrl => { v with se.writeCtrl := true }
  | .dscr => { v with se.writeDscr := true }
  | .ciabr => { v with se.writeCiabr := true }
  | .tb => { v with se.writeTbl := true }
  | .tbu => { v with se.writeTbu := true }
  | _ => v

/-- `mtspr`. -/
def mtsprActions (d : Draft) : Draft :=
  let v := { d.v with se.writePmuspr := e.sprSelect.ispmu }
  { d with
    v := if e.sprSelect.valid && !e.sprSelect.ispmu then mtsprEffect e v else v
    illegal := d.illegal || (!e.sprSelect.valid && !e.sprIsRam && illegalSpr ctrl msr e) }

/-- A branch, conditional or not: what all of them do. -/
def branchActions (v : Actions) (taken : Bool) : Actions :=
  { v with
    takeBranch := taken
    e.brTaken := taken
    doTrace := v.doTrace || msr.getLsbD msrBE
    se.setCfar := taken }

/-- The case statement on the type of the instruction. -/
def opActions (d : Draft) : Draft :=
  let v := d.v
  let bcTaken := ppcBcTaken (e.insn.extractLsb' 21 5) (e.insn.extractLsb' 16 5) e.cr ramsprOdd
  match e.op with
  | .illegal => { d with illegal := true }
  | .sc =>
      -- bit 1 of the instruction distinguishes sc from scv
      let v :=
        if e.insn.getLsbD 1 then { v with e.intrVec := 0xc00 }
        else
          { v with
            se.scvTrap := true
            e.intrVec := e.insn.extractLsb' 5 7 ++ 0#5 }
      { d with v := { v with trap := true, advanceNia := true } }
  | .attn =>
      if e.insn.extractLsb' 1 10 = 0b0100000000 then { d with v := { v with se.terminate := true } }
      else { d with illegal := true }
  | .add =>
      { d with
        v := { v with
          e.xerc := if e.oe then setOv v.e.xerc dp.overflow64 dp.overflow32 else v.e.xerc } }
  | .trap =>
      { d with
        v := { v with
          e := { v.e with intrVec := 0x700, srr1 := srr1Bit 46 true }
          trap := dp.trapval &&& e.insn.extractLsb' 21 5 != 0 } }
  | .b =>
      let v := branchActions msr v true
      { d with
        v := { v with
          directBranch := true
          e := { v.e with brLast := true, redirect := !e.brPred } } }
  | .bc =>
      let v := branchActions msr v bcTaken
      { d with
        v := { v with
          directBranch := true
          -- mispredicted branches cause a redirect
          e := { v.e with brLast := true, redirect := bcTaken != e.brPred }
          redirToNext := !bcTaken } }
  | .bcreg =>
      -- indirect branches are never predicted taken
      let v := branchActions msr v bcTaken
      { d with v := { v with e.redirect := bcTaken } }
  | .rfid =>
      { d with
        v := { v with
          e := { v.e with
            redirMode :=
              BitVec.ofBool (ramsprOdd.getLsbD msrIR || ramsprOdd.getLsbD msrPR) ++
                BitVec.ofBool (!ramsprOdd.getLsbD msrPR) ++
                BitVec.ofBool (!ramsprOdd.getLsbD msrLE) ++
                BitVec.ofBool (!ramsprOdd.getLsbD msrSF)
            redirect := true }
          newMsr := rfidMsr msr ramsprOdd
          se := { v.se with writeMsr := true, setCfar := true }
          fpIntr := hasFpu && fpException &&
            (ramsprOdd.getLsbD msrFE0 || ramsprOdd.getLsbD msrFE1)
          doTrace := false } }
  | .countb => { d with v := { v with res2Sel := 0b01 } }
  | .mfspr => mfsprActions ctrl msr e d
  | .msg =>
      if e.readData2.extractLsb' 27 5 = 5 then
        if !e.insn.getLsbD 6 then
          { d with v := { v with se.sendHmsg := e.readData2.extractLsb' 0 20 == 0 } }
        else { d with v := { v with se.clrHmsg := true } }
      else d
  | .mtmsrd =>
      { d with
        v := { v with
          se.writeMsr := true
          newMsr := mtmsrdMsr (e.insn.getLsbD 16) e.is32bit msr e.readData3
          fpIntr := !e.insn.getLsbD 16 && hasFpu && fpException &&
            (e.readData3.getLsbD msrFE0 || e.readData3.getLsbD msrFE1) } }
  | .mtspr => mtsprActions ctrl msr e d
  | .isync => { d with v := { v with e.redirect := true, redirToNext := true } }
  | .icbi => { d with v := { v with se.icacheInval := true } }
  | .bsort => { d with v := { v with start := .bsort }, owait := true }
  | .bperm => { d with v := { v with start := .bperm }, owait := true }
  | .mulL64 =>
      if e.is32bit then { d with v := { v with se.mult32s := true, res2Sel := 0 } }
      else { d with v := { v with start := .mul }, owait := true }
  | .mulH64 => { d with v := { v with start := .mul }, owait := true }
  | .mulH32 => { d with v := { v with se.mult32s := true, res2Sel := 0b01 } }
  | .div | .dive | .mod =>
      if hasFpu then d else { d with v := { v with start := .div }, owait := true }
  | .wait => { d with v := { v with se.enterWait := e.insn.extractLsb' 21 2 == 0 } }
  | .fetchFailed => { d with v := { v with doTrace := false } }
  | _ => d

/-- A facility that is not available to the user. -/
def facilityUnavailable (v : Actions) (ic : BitVec 4) : Actions :=
  { v with
    exception := true
    ic := ic
    e.intrVec := 0xf60
    se.writeIc := true }

/-- The exceptions that prevent execution, in the order of their priority. -/
def exceptions (d : Draft) : Actions :=
  let v := d.v
  let pr := msr.getLsbD msrPR
  if pr && e.prefixed && !ctrl.fscrPref then facilityUnavailable v 0xb
  else if e.misalignedPrefix then
    { v with
      exception := true
      e := { v.e with intrVec := 0x600, srr1 := v.e.srr1 ||| srr1Bit 35 true ||| srr1Bit 34 true } }
  else if privilegedInsn msr e then
    { v with
      exception := true
      e.srr1 := v.e.srr1 ||| srr1Bit 34 e.prefixed ||| srr1Bit 45 true }
  else if d.illegal then
    { v with
      exception := true
      e := { v.e with
        srr1 := v.e.srr1 ||| srr1Bit 34 e.prefixed, intrVec := 0xe40, hvIntr := true }
      se.setHeir := true }
  else if pr && v.se.scvTrap && !ctrl.fscrScv then facilityUnavailable v 0xc
  else if pr && e.usesTar && !ctrl.fscrTar then facilityUnavailable v 0x8
  else if pr && e.usesDscr && !ctrl.fscrDscr then facilityUnavailable v 0x2
  else if hasFpu && !msr.getLsbD msrFP && e.facFpu then
    { v with
      exception := true
      e := { v.e with srr1 := v.e.srr1 ||| srr1Bit 34 e.prefixed, intrVec := 0x800 } }
  else v

/-- An exception that prevents execution touches the vector, `SRR1`, `hv_intr`, the facility and the
writes of `HEIR` and of the facility. -/
theorem exceptions_keeps {α : Type*} (f : Actions → α) (d : Draft)
    (hf : ∀ (v : Actions) exception ic vec srr1 hv writeIc setHeir,
      f { v with
        exception := exception
        ic := ic
        e := { v.e with intrVec := vec, srr1 := srr1, hvIntr := hv }
        se := { v.se with writeIc := writeIc, setHeir := setHeir } } = f v) :
    f (exceptions hasFpu ctrl msr e d) = f d.v := by
  unfold exceptions facilityUnavailable
  dsimp only
  repeat' refine Clocked.ite_keeps ?_ ?_
  all_goals first | rfl | exact hf d.v _ _ _ _ _ _ _

/-- `execute1_actions`. -/
def execute1Actions : Actions :=
  let d := opActions hasFpu ctrl msr e dp ramsprOdd fpException
    (defaultActions ctrl msr e dp ramsprOdd)
  let v := exceptions hasFpu ctrl msr e d
  { v with complete := e.unit == .alu && e.valid && !v.exception && !d.owait }

end Microwatt.Execute1
