import Microwatt.Execute1.Actions

/-!
# The second execute stage

The process `execute2_1` of `execute1.vhdl` with the registers it updates: the control
registers `ctrl`, the SPRs in RAM, the timebase and the doorbell.  Together with the first
stage this is the control of the whole unit; the results of the data path are inputs.
-/

namespace Microwatt.Execute1

/-- `reg_stage2_type`. -/
structure RegStage2 where
  e : Execute1ToWriteback
  se : SideEffect
  extInterrupt : Bool
  takenBranchEvent : Bool
  brMispredict : Bool
  logAddrSpr : BitVec 32

/-- The registers of execute1. -/
structure Core where
  st : State
  ex2 : RegStage2
  ctrl : Ctrl
  evenSprs : BitVec 3 → BitVec 64
  oddSprs : BitVec 3 → BitVec 64
  timebase : BitVec 64
  tbCarry : Bool
  dhdPending : Bool

/-- `WritebackToExecute1Type`. -/
structure WritebackToExecute1 where
  intr : Bool
  hvIntr : Bool
  scvInt : Bool
  altInt : Bool
  srr1 : BitVec 16
deriving DecidableEq

/-- The inputs of execute1 in one cycle, outside reset. -/
structure CoreInput where
  eIn : Decoded
  dp : Datapath
  s1Result : BitVec 64
  toMultiply : MultiplyInput
  toDivider : Execute1ToDivider
  rs : BitVec 64
  flushIn : Bool
  interruptIn : WritebackToExecute1
  /-- `l_in.busy` apart from `l_in.l2stall`. -/
  lBusy : Bool
  l2stall : Bool
  /-- `fp_in.busy` apart from `fp_in.f2stall`. -/
  fpBusy : Bool
  f2stall : Bool
  fpException : Bool
  pmuIntr : Bool
  pmuSprVal : BitVec 64
  extIrq : Bool
  msgIn : Bool
  tbReset : Bool
  tbFreeze : Bool
  mult32sResult : BitVec 64
  mult32sOverflow : Bool
  countbitsResult : BitVec 64
  sprResult : BitVec 64

/-! ## The first stage in its place -/

variable (hasFpu : Bool) (c : Core) (i : CoreInput)

/-- `next_nia`. -/
def nextNia : BitVec 64 :=
  c.st.ex1.e.lastNia + 4

/-- `ramspr_odd`, with the write data bypass. -/
def ramsprOdd : BitVec 64 :=
  if c.st.ex1.se.ramsprWriteOdd ∧ i.eIn.ramsprOddRdaddr = c.st.ex1.ramsprWraddr then
    c.st.ex1.sprWriteData
  else c.oddSprs i.eIn.ramsprOddRdaddr

/-- `dec_sign`. -/
def decSign : Bool :=
  if c.ctrl.lpcrLd then c.ctrl.dec.getLsbD 63 else c.ctrl.dec.getLsbD 31

/-- `actions`. -/
def actions : Actions :=
  execute1Actions hasFpu c.ctrl c.st.ex1.msr i.eIn i.dp (ramsprOdd c i) i.fpException

/-- `stage2_stall`. -/
def stage2Stall : Bool :=
  i.l2stall || i.f2stall

/-! ## `ctrl_tmp` -/

/-- The updates of `ctrl` that the instruction in `ex1` asks for. -/
def sideEffects (r : RegStage1) (v : Ctrl) : Ctrl :=
  { v with
    msr := if r.se.writeMsr then r.msr else v.msr
    xerLow := if r.se.writeXerlow then r.sprWriteData.extractLsb' 0 18 else v.xerLow
    dec := if r.se.writeDec then r.sprWriteData else v.dec
    cfar :=
      if r.se.writeCfar then r.sprWriteData
      else if r.se.setCfar then r.e.lastNia
      else v.cfar
    fscrIc :=
      if r.se.writeFscr then r.sprWriteData.extractLsb' 56 4
      else if r.se.writeIc then r.ic
      else v.fscrIc
    fscrPref := if r.se.writeFscr then r.sprWriteData.getLsbD (63 - 50) else v.fscrPref
    fscrScv := if r.se.writeFscr then r.sprWriteData.getLsbD (63 - 51) else v.fscrScv
    fscrTar := if r.se.writeFscr then r.sprWriteData.getLsbD (63 - 55) else v.fscrTar
    fscrDscr := if r.se.writeFscr then r.sprWriteData.getLsbD (63 - 61) else v.fscrDscr
    lpcrHail := if r.se.writeLpcr then r.sprWriteData.getLsbD (63 - 37) else v.lpcrHail
    lpcrEvirt := if r.se.writeLpcr then r.sprWriteData.getLsbD (63 - 42) else v.lpcrEvirt
    lpcrLd := if r.se.writeLpcr then r.sprWriteData.getLsbD (63 - 46) else v.lpcrLd
    lpcrHeic := if r.se.writeLpcr then r.sprWriteData.getLsbD (63 - 59) else v.lpcrHeic
    lpcrLpes := if r.se.writeLpcr then r.sprWriteData.getLsbD (63 - 60) else v.lpcrLpes
    lpcrHvice := if r.se.writeLpcr then r.sprWriteData.getLsbD (63 - 62) else v.lpcrHvice
    heir :=
      if r.se.writeHeir then r.sprWriteData
      else if r.se.setHeir then
        (if r.prefixed then 1#6 ++ r.insnPrefix else 0#32) ++ r.insn
      else v.heir
    run := if r.se.writeCtrl then r.sprWriteData.getLsbD 0 else v.run
    dscr := if r.se.writeDscr then r.sprWriteData.extractLsb' 0 25 else v.dscr
    ciabr := if r.se.writeCiabr then r.sprWriteData else v.ciabr
    waitState := r.se.enterWait || v.waitState }

/-- `irq_exc`. -/
def irqExc : Bool :=
  i.pmuIntr || decSign c || i.extIrq || c.dhdPending

/-- The MSR that an interrupt leaves. -/
def interruptMsr (w : WritebackToExecute1) (msr : BitVec 64) : BitVec 64 :=
  let v := setBit msrSF true msr
  let v := setBit msrPR false v
  let v := setBit msrSE false v
  let v := setBit msrBE false v
  let v := setBit msrFP false v
  let v := setBit msrFE0 false v
  let v := setBit msrFE1 false v
  let v := setBit msrIR w.altInt v
  let v := setBit msrDR w.altInt v
  let v := setBit msrLE true v
  let v := if !w.scvInt then setBit msrEE false v else v
  if !w.scvInt && !w.hvIntr then setBit msrRI false v else v

/-- What happens to `ctrl` without an instruction: the decrementer counts, an exception ends a
wait state, and an interrupt changes the MSR. -/
def ctrlTick (v : Ctrl) : Ctrl :=
  { v with
    waitState :=
      v.waitState && !(c.st.ex1.traceNext || irqExc c i || i.interruptIn.intr)
    msr := if i.interruptIn.intr then interruptMsr i.interruptIn v.msr else v.msr }

/-- `ctrl_tmp`. -/
def ctrlTmp : Ctrl :=
  let v := { c.ctrl with dec := c.ctrl.dec - 1 }
  let v := if !stage2Stall i then sideEffects c.st.ex1 v else v
  ctrlTick c i v

/-! ## The SPRs in RAM and the timebase -/

/-- `intr_srr1`. -/
def intrSrr1 (msr : BitVec 64) (flags : BitVec 16) : BitVec 64 :=
  msr.extractLsb' 31 33 ++ flags.extractLsb' 11 4 ++ msr.extractLsb' 22 5 ++
    flags.extractLsb' 0 6 ++ msr.extractLsb' 0 16

/-- `doit`: the instruction in `ex1` may write to the SPR RAMs. -/
def ramsprDoit : Bool :=
  c.st.ex1.e.valid && !stage2Stall i && !i.flushIn

/-- `wr_addr`. -/
def ramsprWrAddr : BitVec 3 :=
  if i.interruptIn.intr then
    if i.interruptIn.hvIntr then 1 else if i.interruptIn.scvInt then 5 else 0
  else c.st.ex1.ramsprWraddr

/-- `even_sprs`. -/
def evenSprsNext : BitVec 3 → BitVec 64 :=
  if (c.st.ex1.se.ramsprWriteEven && ramsprDoit c i) || i.interruptIn.intr then
    Function.update c.evenSprs (ramsprWrAddr c i)
      (if i.interruptIn.intr then c.ex2.e.lastNia
        else if c.st.ex1.lrFromNext then nextNia c
        else c.st.ex1.sprWriteData)
  else c.evenSprs

/-- `odd_sprs`. -/
def oddSprsNext : BitVec 3 → BitVec 64 :=
  if (c.st.ex1.se.ramsprWriteOdd && ramsprDoit c i) || i.interruptIn.intr then
    Function.update c.oddSprs (ramsprWrAddr c i)
      (if i.interruptIn.intr then intrSrr1 c.ctrl.msr i.interruptIn.srr1
        else c.st.ex1.sprWriteData)
  else c.oddSprs

/-- `tb_next`. -/
def tbNext : BitVec 64 :=
  let writeTbl := !stage2Stall i && c.st.ex1.se.writeTbl
  let writeTbu := !stage2Stall i && c.st.ex1.se.writeTbu
  let tlo :=
    if writeTbl then c.st.ex1.sprWriteData.extractLsb' 0 32
    else if !i.tbFreeze then c.timebase.extractLsb' 0 32 + 1
    else c.timebase.extractLsb' 0 32
  let carry := !writeTbl && !i.tbFreeze && c.tbCarry
  let thi :=
    if writeTbu then c.st.ex1.sprWriteData.extractLsb' 0 32
    else c.timebase.extractLsb' 32 32 + (BitVec.ofBool carry).setWidth 32
  thi ++ tlo

/-! ## `ex2in` -/

/-- `v.log_addr_spr`. -/
def logAddrNext : BitVec 32 :=
  if stage2Stall i then c.ex2.logAddrSpr
  else if c.st.ex1.se.writeLoga then c.st.ex1.sprWriteData.extractLsb' 0 32
  else if c.st.ex1.se.incLoga then c.ex2.logAddrSpr + 1
  else c.ex2.logAddrSpr

/-- `rcresult`. -/
def rcResult : BitVec 64 :=
  if c.st.ex1.se.mult32s then
    if !c.st.ex1.res2Sel.getLsbD 0 then i.mult32sResult
    else i.mult32sResult.extractLsb' 32 32 ++ i.mult32sResult.extractLsb' 32 32
  else if !c.st.ex1.res2Sel.getLsbD 0 then c.st.ex1.e.writeData
  else i.countbitsResult

/-- `ex_result`. -/
def exResult : BitVec 64 :=
  if c.st.ex1.res2Sel.getLsbD 1 then
    if !c.st.ex1.res2Sel.getLsbD 0 then i.sprResult else i.pmuSprVal
  else if c.st.ex1.redirToNext then nextNia c
  else rcResult c i

/-- The XER bits with the overflow of a 32-bit multiply. -/
def ex2Xerc : XerCommon :=
  if c.st.ex1.se.mult32s && c.st.ex1.oe then setOverflow c.st.ex1.e.xerc i.mult32sOverflow
  else c.st.ex1.e.xerc

/-- `CR0` for a result. -/
def cr0Of (so : Bool) : BitVec 4 :=
  let r := rcResult c i
  let zero :=
    if !c.st.ex1.e.mode32bit then r == 0 else r.extractLsb' 0 32 == 0
  let sign :=
    if !c.st.ex1.e.mode32bit then (exResult c i).getLsbD 63 else (exResult c i).getLsbD 31
  BitVec.ofBool sign ++ BitVec.ofBool (!(sign || zero)) ++ BitVec.ofBool zero ++ BitVec.ofBool so

/-- `v.e`. -/
def ex2E : Execute1ToWriteback :=
  let r := c.st.ex1
  let stall := stage2Stall i
  let valid := r.e.valid && !stall
  -- an instruction that is stalled or flushed writes nothing
  let live := valid && !i.flushIn
  let rc := r.e.rc && r.e.writeEnable
  { r.e with
    valid := live
    interrupt := r.e.interrupt && !stall && !i.flushIn
    writeEnable := live && r.e.writeEnable
    writeCrEnable := live && r.e.writeCrEnable
    writeXercEnable := live && r.e.writeXercEnable
    redirect := live && r.e.redirect
    brLast := live && r.e.brLast
    lastNia :=
      if stall then c.ex2.e.lastNia else if r.advanceNia then nextNia c else r.e.lastNia
    xerc := ex2Xerc c i
    writeData := exResult c i
    writeCrData :=
      if rc then cr0Of c i (ex2Xerc c i).so ++ r.e.writeCrData.extractLsb' 0 28
      else r.e.writeCrData
    writeCrMask := if rc then r.e.writeCrMask ||| 0x80 else r.e.writeCrMask }

/-- `ex2in`. -/
def ex2in : RegStage2 :=
  let r := c.st.ex1
  let stall := stage2Stall i
  let live := r.e.valid && !stall && !i.flushIn
  { e := ex2E c i
    se := if stall || i.flushIn then .init else r.se
    extInterrupt := r.extInterrupt && !stall && !i.flushIn
    takenBranchEvent := r.takenBranchEvent && live
    brMispredict := r.brMispredict && live
    logAddrSpr := logAddrNext c i }

/-- `x_to_pmu.mtspr`. -/
def pmuMtspr : Bool :=
  !stage2Stall i && c.st.ex1.se.writePmuspr

/-- The inputs of the first stage. -/
def stageInput : Input where
  eIn := i.eIn.toStage
  actions := actions hasFpu c i
  s1Result := i.s1Result
  toMultiply := i.toMultiply
  toDivider := i.toDivider
  rs := i.rs
  rb := i.eIn.readData2
  flushIn := i.flushIn
  interruptIn := i.interruptIn.intr
  lBusy := i.lBusy || i.l2stall
  fpBusy := i.fpBusy || i.f2stall
  waitState := c.ctrl.waitState
  pmuIntr := i.pmuIntr
  decSign := decSign c
  dhdPending := c.dhdPending
  extIrq := i.extIrq
  lpcrHeic := c.ctrl.lpcrHeic
  lpcrLpes := c.ctrl.lpcrLpes
  ctrlMsr := (ctrlTmp c i).msr

/-- A rising edge outside reset. -/
def Core.step : Core where
  st := Execute1.step hasFpu c.st (stageInput hasFpu c i)
  ex2 := ex2in c i
  ctrl := ctrlTmp c i
  evenSprs := evenSprsNext c i
  oddSprs := oddSprsNext c i
  timebase := if i.tbReset then 0 else tbNext c i
  tbCarry := !i.tbReset && (tbNext c i).extractLsb' 0 32 == BitVec.allOnes 32
  dhdPending := !c.ex2.se.clrHmsg && (i.msgIn || c.dhdPending)

/-! ## Fixed inputs -/

/-- The MSR after reset: SF, HV and LE. -/
def resetMsr : BitVec 64 := 0x9000000000000001

/-- No instruction, as decode2 sends it after a reset or a flush. -/
def Decoded.idle : Decoded where
  valid := false
  unit := .alu
  facFpu := false
  op := .illegal
  nia := 0
  instrTag := ⟨0, false⟩
  writeReg := 0
  writeRegEnable := false
  readData2 := 0
  readData3 := 0
  cr := 0
  lr := false
  rc := false
  oe := false
  inputCarry := .zero
  outputCarry := false
  outputCr := false
  outputXer := false
  is32bit := false
  insn := 0
  brPred := false
  resultSel := .add
  subSelect := 0
  second := false
  sprSelect := ⟨0, false, false, false, false, false⟩
  sprIsRam := false
  ramsprOddRdaddr := 0
  ramsprWraddr := 0
  ramsprWriteEven := false
  ramsprWriteOdd := false
  decCtr := false
  privileged := false
  prefixed := false
  insnPrefix := 0
  illegalSuffix := false
  misalignedPrefix := false
  illegalForm := false
  usesTar := false
  usesDscr := false

/-- A cycle with only this instruction. -/
def CoreInput.of (e : Decoded) : CoreInput where
  eIn := e
  dp := ⟨false, false, false, false, false, 0, 0, 0, ⟨false, false, false, false, false⟩⟩
  s1Result := 0
  toMultiply := ⟨false, 0, 0, 0, false, false⟩
  toDivider := ⟨false, false, 0, 0, false, false, false, false, false⟩
  rs := 0
  flushIn := false
  interruptIn := ⟨false, false, false, false, 0⟩
  lBusy := false
  l2stall := false
  fpBusy := false
  f2stall := false
  fpException := false
  pmuIntr := false
  pmuSprVal := 0
  extIrq := false
  msgIn := false
  tbReset := false
  tbFreeze := false
  mult32sResult := 0
  mult32sOverflow := false
  countbitsResult := 0
  sprResult := 0

/-- execute1 after a reset, with SPR RAMs and timebase cleared. -/
def Core.cold : Core where
  st := .cold
  ex2 := ⟨.init, .init, false, false, false, 0⟩
  ctrl :=
    { waitState := false
      run := true
      dec := 0
      msr := resetMsr
      cfar := 0
      xerLow := 0
      fscrIc := 0
      fscrPref := true
      fscrScv := true
      fscrTar := true
      fscrDscr := true
      heir := 0
      dscr := 0
      ciabr := 0
      lpcrHail := false
      lpcrEvirt := false
      lpcrLd := true
      lpcrHeic := false
      lpcrLpes := false
      lpcrHvice := false }
  evenSprs := fun _ => 0
  oddSprs := fun _ => 0
  timebase := 0
  tbCarry := false
  dhdPending := false

end Microwatt.Execute1
