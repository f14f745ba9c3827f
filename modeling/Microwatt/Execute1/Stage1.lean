import Microwatt.Lib.Bits
import Microwatt.Lib.Run
import Microwatt.Multiply
import Microwatt.Divider
import Microwatt.Bitsort

/-!
# The first execute stage

The process `execute1_1` of `execute1.vhdl`, with the multi-cycle units that it
starts and waits for.  What the other processes of the unit make of the instruction
and of the operands (`actions`, the inputs of the arithmetic units, the results of the
single-cycle ones) are inputs of the stage, as are the interrupt conditions.
-/

namespace Microwatt.Execute1

/-- `xer_common_t`. -/
structure XerCommon where
  ca : Bool
  ca32 : Bool
  ov : Bool
  ov32 : Bool
  so : Bool
deriving DecidableEq

/-- `instr_tag_t`. -/
structure InstrTag where
  tag : Fin 4
  valid : Bool
deriving DecidableEq

/-- `Execute1ToWritebackType`. -/
structure Execute1ToWriteback where
  valid : Bool
  instrTag : InstrTag
  rc : Bool
  mode32bit : Bool
  writeEnable : Bool
  writeReg : BitVec 6
  writeData : BitVec 64
  writeCrEnable : Bool
  writeCrMask : BitVec 8
  writeCrData : BitVec 32
  writeXercEnable : Bool
  xerc : XerCommon
  interrupt : Bool
  altIntr : Bool
  hvIntr : Bool
  isScv : Bool
  intrVec : BitVec 12
  redirect : Bool
  redirMode : BitVec 4
  lastNia : BitVec 64
  brLast : Bool
  brTaken : Bool
  absBr : Bool
  srr1 : BitVec 16
deriving DecidableEq

/-- `side_effect_type`, for one CPU. -/
structure SideEffect where
  terminate : Bool
  icacheInval : Bool
  writeMsr : Bool
  writeXerlow : Bool
  writeDec : Bool
  writeCfar : Bool
  setCfar : Bool
  writeLoga : Bool
  incLoga : Bool
  writePmuspr : Bool
  ramsprWriteEven : Bool
  ramsprWriteOdd : Bool
  mult32s : Bool
  writeFscr : Bool
  writeIc : Bool
  writeLpcr : Bool
  writeHeir : Bool
  setHeir : Bool
  writeCtrl : Bool
  writeDscr : Bool
  writeCiabr : Bool
  enterWait : Bool
  scvTrap : Bool
  writeTbl : Bool
  writeTbu : Bool
  sendHmsg : Bool
  clrHmsg : Bool
deriving DecidableEq

/-- `side_effect_init`. -/
def SideEffect.init : SideEffect :=
  ⟨false, false, false, false, false, false, false, false, false, false, false, false, false,
    false, false, false, false, false, false, false, false, false, false, false, false, false,
    false⟩

/-- The instruction types that the trace interrupt tells apart. -/
inductive InsnType where
  | load
  | store
  | icbi
  | icbt
  | dcbf
  | dcbz
  | other
deriving DecidableEq

/-- The operation that an instruction starts in a multi-cycle unit, if any:
`start_mul`, `start_div`, `start_bsort` and `start_bperm` come from different arms of
the case statement of `execute1_actions`. -/
inductive StartOp where
  | none
  | mul
  | div
  | bsort
  | bperm
deriving DecidableEq

/-- `actions_type`.  `e.writeData` is left to `aluResult`. -/
structure Actions where
  e : Execute1ToWriteback
  se : SideEffect
  complete : Bool
  exception : Bool
  trap : Bool
  advanceNia : Bool
  redirToNext : Bool
  newMsr : BitVec 64
  takeBranch : Bool
  directBranch : Bool
  start : StartOp
  doTrace : Bool
  ciabrTrace : Bool
  fpIntr : Bool
  res2Sel : BitVec 2
  sprWriteData : BitVec 64
  ic : BitVec 4
deriving DecidableEq

/-- `spr_id`. -/
structure SprId where
  sel : BitVec 4
  valid : Bool
  ispmu : Bool
  ronly : Bool
  wonly : Bool
  noop : Bool
deriving DecidableEq

/-- The fields of `Decode2ToExecute1Type` that the stage itself reads. -/
structure Decode2ToExecute1 where
  valid : Bool
  insnType : InsnType
  second : Bool
  oe : Bool
  sprSelect : SprId
  subSelect : BitVec 3
  ramsprWraddr : BitVec 3
  lr : Bool
  prefixed : Bool
  insn : BitVec 32
  insnPrefix : BitVec 26
  /-- `e_in.result_sel = MCYC`. -/
  selMcyc : Bool

/-- `reg_stage1_type`. -/
structure RegStage1 where
  e : Execute1ToWriteback
  se : SideEffect
  busy : Bool
  fpExceptionNext : Bool
  traceNext : Bool
  traceCiabr : Bool
  prevOp : InsnType
  prevPrefixed : Bool
  oe : Bool
  mulSelect : BitVec 3
  res2Sel : BitVec 2
  sprSelect : SprId
  pmuSprNum : BitVec 5
  redirToNext : Bool
  advanceNia : Bool
  lrFromNext : Bool
  mulInProgress : Bool
  mulFinish : Bool
  divInProgress : Bool
  bsortInProgress : Bool
  bpermInProgress : Bool
  noInstrAvail : Bool
  instrDispatch : Bool
  extInterrupt : Bool
  takenBranchEvent : Bool
  brMispredict : Bool
  msr : BitVec 64
  xerc : XerCommon
  xercValid : Bool
  ramsprWraddr : BitVec 3
  sprWriteData : BitVec 64
  ic : BitVec 4
  prefixed : Bool
  insn : BitVec 32
  insnPrefix : BitVec 26
deriving DecidableEq

/-- The stage with its units. -/
structure State where
  ex1 : RegStage1
  multiply : Multiply
  divider : Divider
  bitsort : Bitsort

/-- The inputs of one cycle, outside reset. -/
structure Input where
  eIn : Decode2ToExecute1
  actions : Actions
  /-- The selected single-cycle result. -/
  s1Result : BitVec 64
  /-- `x_to_multiply`; its `valid` is not read. -/
  toMultiply : MultiplyInput
  /-- `x_to_divider`; its `valid` and `flush` are not read. -/
  toDivider : Execute1ToDivider
  rs : BitVec 64
  rb : BitVec 64
  flushIn : Bool
  /-- `interrupt_in.intr`. -/
  interruptIn : Bool
  /-- `l_in.busy`. -/
  lBusy : Bool
  /-- `fp_in.busy`. -/
  fpBusy : Bool
  waitState : Bool
  pmuIntr : Bool
  decSign : Bool
  dhdPending : Bool
  extIrq : Bool
  lpcrHeic : Bool
  lpcrLpes : Bool
  /-- `ctrl_tmp.msr`. -/
  ctrlMsr : BitVec 64

/-- `MSR_EE`. -/
def msrEE : Nat := 63 - 48

/-- `MSR_PR`. -/
def msrPR : Nat := 63 - 49

variable (hasFpu : Bool) (s : State) (i : Input)

/-- `busy_out`. -/
def busyOut : Bool :=
  i.lBusy || s.ex1.busy || i.fpBusy || i.waitState

/-- `valid_in`. -/
def validIn : Bool :=
  i.eIn.valid && !(busyOut s i || i.flushIn || s.ex1.e.redirect || s.ex1.e.interrupt)

/-- `multicyc_result`. -/
def multicycResult : BitVec 64 :=
  let prod := s.multiply.out.result
  if !s.ex1.mulSelect.getLsbD 2 then
    match (s.ex1.mulSelect.extractLsb' 0 2).toNat with
    | 0 => prod.extractLsb' 0 64
    | 1 => prod.extractLsb' 32 32 ++ prod.extractLsb' 32 32
    | _ => prod.extractLsb' 64 64
  else if s.ex1.mulSelect.getLsbD 0 && !hasFpu then s.divider.dOut.writeRegData
  else s.bitsort.result

/-- `alu_result`. -/
def aluResult : BitVec 64 :=
  if s.ex1.busy || i.eIn.selMcyc then multicycResult hasFpu s else i.s1Result

/-- `irq_valid`. -/
def irqValid : Bool :=
  s.ex1.msr.getLsbD msrEE &&
    (i.pmuIntr || i.decSign || i.dhdPending ||
      (i.extIrq && (!i.lpcrHeic || s.ex1.msr.getLsbD msrPR)))

/-- An interrupt is taken before or instead of executing the instruction. -/
def interruptBefore : Bool :=
  validIn s i && !i.eIn.second &&
    ((hasFpu && s.ex1.fpExceptionNext) || s.ex1.traceNext || irqValid s i)

/-- `go`. -/
def go : Bool :=
  validIn s i && !(i.actions.exception || interruptBefore hasFpu s i)

/-- Bit `47 - k` of `srr1`. -/
def srr1Bit (k : Nat) (b : Bool) : BitVec 16 :=
  if b then 1#16 <<< (47 - k) else 0

/-! ## `execute1_1`, section by section -/

/-- The registers that follow the instruction while the stage is not busy, and the
one-cycle signals. -/
def latch (v : RegStage1) : RegStage1 :=
  let v :=
    if !busyOut s i then
      { v with
        e := { i.actions.e with writeData := aluResult hasFpu s i, valid := false }
        oe := i.eIn.oe
        sprSelect := i.eIn.sprSelect
        pmuSprNum := i.eIn.insn.extractLsb' 16 5
        mulSelect := i.eIn.subSelect
        se := .init
        ramsprWraddr := i.eIn.ramsprWraddr
        lrFromNext := i.eIn.lr
        sprWriteData := i.actions.sprWriteData
        ic := i.actions.ic
        prefixed := i.eIn.prefixed
        insn := i.eIn.insn
        insnPrefix := i.eIn.insnPrefix }
    else v
  let v :=
    { v with
      extInterrupt := false
      takenBranchEvent := false
      brMispredict := false
      busy := false }
  if validIn s i then
    { v with
      prevOp := i.eIn.insnType
      prevPrefixed := i.eIn.prefixed
      se := { v.se with setHeir := i.actions.se.setHeir, writeIc := i.actions.se.writeIc } }
  else v

/-- Any interrupt to be taken before or instead of executing this instruction. -/
def interrupts (v : RegStage1) : RegStage1 :=
  if validIn s i && !i.eIn.second then
    if hasFpu && s.ex1.fpExceptionNext then
      { v with e := { v.e with intrVec := 0x700, srr1 := srr1Bit 43 true ||| srr1Bit 47 true } }
    else if s.ex1.traceNext then
      let loads := s.ex1.prevOp == .load || s.ex1.prevOp == .icbi || s.ex1.prevOp == .icbt ||
        s.ex1.prevOp == .dcbf
      let stores := s.ex1.prevOp == .store || s.ex1.prevOp == .dcbz
      { v with
        e := { v.e with
          intrVec := 0xd00
          srr1 := srr1Bit 33 true ||| srr1Bit 34 s.ex1.prevPrefixed |||
            srr1Bit 35 (loads && !s.ex1.traceCiabr) |||
            srr1Bit 36 (!loads && stores && !s.ex1.traceCiabr) |||
            srr1Bit 43 s.ex1.traceCiabr } }
    else if irqValid s i then
      if i.pmuIntr then { v with e := { v.e with intrVec := 0xf00, srr1 := 0 } }
      else if i.dhdPending then
        { v with e := { v.e with intrVec := 0xe80, hvIntr := true, srr1 := 0 }, se.clrHmsg := true }
      else if i.decSign then { v with e := { v.e with intrVec := 0x900, srr1 := 0 } }
      else if i.extIrq then
        { v with
          e := { v.e with intrVec := 0x500, hvIntr := !i.lpcrLpes, srr1 := 0 }
          extInterrupt := true }
      else { v with e.srr1 := 0 }
    else v
  else v

/-- Start the instruction. -/
def dispatch (v : RegStage1) : RegStage1 :=
  let v :=
    { v with
      noInstrAvail := !(i.eIn.valid || i.lBusy || s.ex1.busy || i.fpBusy)
      instrDispatch := go hasFpu s i }
  if go hasFpu s i then
    { v with
      se := i.actions.se
      e := { v.e with valid := i.actions.complete }
      takenBranchEvent := i.actions.takeBranch
      traceNext := i.actions.doTrace || i.actions.ciabrTrace
      traceCiabr := i.actions.ciabrTrace
      fpExceptionNext := i.actions.fpIntr
      res2Sel := i.actions.res2Sel
      msr := i.actions.newMsr
      mulInProgress := i.actions.start == .mul
      divInProgress := i.actions.start == .div
      bsortInProgress := i.actions.start == .bsort
      bpermInProgress := i.actions.start == .bperm
      brMispredict := v.e.redirect && i.actions.directBranch
      advanceNia := i.actions.advanceNia
      redirToNext := i.actions.redirToNext
      busy := i.actions.start != .none }
  else v

/-- `xerc` with the overflow bits of a multi-cycle result. -/
def setOverflow (x : XerCommon) (overflow : Bool) : XerCommon :=
  { x with ov := overflow, ov32 := overflow, so := overflow || x.so }

/-- Wait for the divider. -/
def waitDiv (v : RegStage1) : RegStage1 :=
  if !hasFpu && s.ex1.divInProgress then
    let d := s.divider.dOut
    { v with
      divInProgress := !d.valid
      busy := !d.valid
      e := { v.e with
        xerc := if d.valid && s.ex1.oe then setOverflow v.e.xerc d.overflow else v.e.xerc
        valid := d.valid
        writeData := aluResult hasFpu s i } }
  else v

/-- Wait for the multiplier; with OE set the overflow bit comes a cycle later. -/
def waitMul (v : RegStage1) : RegStage1 :=
  let m := s.multiply.out
  let v :=
    if s.ex1.mulInProgress then
      { v with
        mulInProgress := !m.valid
        mulFinish := m.valid && s.ex1.oe
        e := { v.e with valid := m.valid && !s.ex1.oe, writeData := aluResult hasFpu s i }
        busy := !(m.valid && !s.ex1.oe) }
    else v
  if s.ex1.mulFinish then
    { v with
      mulFinish := false
      e := { v.e with xerc := setOverflow v.e.xerc m.overflow, valid := true } }
  else v

/-- Wait for a bit sort or a bit permutation. -/
def waitBits (v : RegStage1) : RegStage1 :=
  let v :=
    if s.ex1.bsortInProgress then
      { v with
        bsortInProgress := !s.bitsort.sd
        e := { v.e with valid := s.bitsort.sd, writeData := aluResult hasFpu s i }
        busy := !s.bitsort.sd }
    else v
  if s.ex1.bpermInProgress then
    { v with
      bpermInProgress := !s.bitsort.bpDone
      e := { v.e with valid := s.bitsort.bpDone, writeData := aluResult hasFpu s i }
      busy := !s.bitsort.bpDone }
  else v

/-- The XER value forwarded to the next instruction. -/
def forwardXer (v : RegStage1) : RegStage1 :=
  if v.e.writeXercEnable && v.e.valid then { v with xerc := v.e.xerc, xercValid := true } else v

/-- The interrupt to writeback, and no redirect without a valid instruction. -/
def raise (v : RegStage1) : RegStage1 :=
  let v :=
    if !(s.ex1.busy || i.lBusy || i.fpBusy) then
      { v with
        e := { v.e with
          -- an instruction that is started raises only its own trap
          interrupt := if go hasFpu s i then i.actions.trap
            else (validIn s i && i.actions.exception) || interruptBefore hasFpu s i
          isScv := go hasFpu s i && i.actions.se.scvTrap } }
    else v
  { v with
    e := { v.e with
      redirect := v.e.valid && v.e.redirect
      brLast := v.e.valid && v.e.brLast } }

/-- What a flush and an interrupt clear. -/
def flush (v : RegStage1) : RegStage1 :=
  let v :=
    if i.flushIn then
      { v with
        e := { v.e with valid := false, interrupt := false, redirect := false, brLast := false }
        busy := false
        divInProgress := false
        mulInProgress := false
        mulFinish := false
        xercValid := false }
    else v
  let v := if i.flushIn || i.interruptIn then { v with msr := i.ctrlMsr } else v
  if i.interruptIn then { v with traceNext := false, fpExceptionNext := false } else v

/-- `ex1in`. -/
def ex1in : RegStage1 :=
  flush i (raise hasFpu s i (forwardXer (waitBits hasFpu s i (waitMul hasFpu s i
    (waitDiv hasFpu s i (dispatch hasFpu s i (interrupts hasFpu s i (latch hasFpu s i s.ex1))))))))

/-- The operation is started in its unit. -/
def starts (op : StartOp) : Bool :=
  go hasFpu s i && i.actions.start == op

/-- A rising edge outside reset. -/
def step : State where
  ex1 := ex1in hasFpu s i
  multiply := s.multiply.step { i.toMultiply with valid := starts hasFpu s i .mul }
  divider :=
    s.divider.step { i.toDivider with valid := starts hasFpu s i .div, flush := i.flushIn }
  bitsort :=
    s.bitsort.step ⟨i.rs, i.rb, starts hasFpu s i .bsort, i.eIn.insn.extractLsb' 6 2,
      starts hasFpu s i .bperm⟩

/-! ## What a part of the stage leaves alone -/

section Keeps

variable {α : Type*} (f : RegStage1 → α) (v : RegStage1)

/-- An interrupt before the instruction touches the vector, `SRR1`, `hv_intr`, the clearing of a
hypervisor message and `ext_interrupt`. -/
theorem interrupts_keeps (hf : ∀ (v : RegStage1) vec srr1 hv hmsg ext,
      f { v with
        e := { v.e with intrVec := vec, srr1 := srr1, hvIntr := hv }
        se.clrHmsg := hmsg
        extInterrupt := ext } = f v) :
    f (interrupts hasFpu s i v) = f v := by
  unfold interrupts
  dsimp only
  repeat' refine Clocked.ite_keeps ?_ ?_
  all_goals first | rfl | exact hf v _ _ _ _ _

/-- The units that the stage waits for touch what is in progress, the result and its flags. -/
theorem waits_keep (hf : ∀ (v : RegStage1) mul fin div bsort bperm busy valid xerc data,
      f { v with
        mulInProgress := mul
        mulFinish := fin
        divInProgress := div
        bsortInProgress := bsort
        bpermInProgress := bperm
        busy := busy
        e := { v.e with valid := valid, xerc := xerc, writeData := data } } = f v) :
    f (waitBits hasFpu s i (waitMul hasFpu s i (waitDiv hasFpu s i v))) = f v := by
  have hdiv : f (waitDiv hasFpu s i v) = f v :=
    Clocked.ite_keeps (hf v _ _ _ _ _ _ _ _ _) rfl
  have hmul (u : RegStage1) : f (waitMul hasFpu s i u) = f u := by
    unfold waitMul
    dsimp only
    refine Clocked.ite_keeps ((hf _ _ _ _ _ _ _ _ _ _).trans ?_) ?_ <;>
      exact Clocked.ite_keeps (hf u _ _ _ _ _ _ _ _ _) rfl
  have hbits (u : RegStage1) : f (waitBits hasFpu s i u) = f u := by
    unfold waitBits
    dsimp only
    refine Clocked.ite_keeps ((hf _ _ _ _ _ _ _ _ _ _).trans ?_) ?_ <;>
      exact Clocked.ite_keeps (hf u _ _ _ _ _ _ _ _ _) rfl
  rw [hbits, hmul, hdiv]

theorem forwardXer_keeps (hf : ∀ (v : RegStage1) xerc valid,
      f { v with xerc := xerc, xercValid := valid } = f v) :
    f (forwardXer v) = f v :=
  Clocked.ite_keeps (hf v _ _) rfl

theorem raise_keeps (hf : ∀ (v : RegStage1) interrupt isScv redirect brLast,
      f { v with
        e := { v.e with
          interrupt := interrupt, isScv := isScv, redirect := redirect, brLast := brLast } } =
            f v) :
    f (raise hasFpu s i v) = f v := by
  unfold raise
  dsimp only
  refine (hf _ _ _ _ _).trans ?_
  exact Clocked.ite_keeps (hf v _ _ _ _) rfl

theorem flush_keeps (hf : ∀ (v : RegStage1) valid interrupt redirect brLast busy div mul fin xerc
      msr trace fp,
      f { v with
        e := { v.e with
          valid := valid, interrupt := interrupt, redirect := redirect, brLast := brLast }
        busy := busy
        divInProgress := div
        mulInProgress := mul
        mulFinish := fin
        xercValid := xerc
        msr := msr
        traceNext := trace
        fpExceptionNext := fp } = f v) :
    f (flush i v) = f v := by
  unfold flush
  dsimp only
  cases i.flushIn <;> cases i.interruptIn <;> exact hf v _ _ _ _ _ _ _ _ _ _ _ _

/-- What follows the dispatch. -/
theorem after_keeps
    (hwaits : ∀ (v : RegStage1) mul fin div bsort bperm busy valid xerc data,
      f { v with
        mulInProgress := mul
        mulFinish := fin
        divInProgress := div
        bsortInProgress := bsort
        bpermInProgress := bperm
        busy := busy
        e := { v.e with valid := valid, xerc := xerc, writeData := data } } = f v)
    (hxer : ∀ (v : RegStage1) xerc valid, f { v with xerc := xerc, xercValid := valid } = f v)
    (hraise : ∀ (v : RegStage1) interrupt isScv redirect brLast,
      f { v with
        e := { v.e with
          interrupt := interrupt, isScv := isScv, redirect := redirect, brLast := brLast } } = f v)
    (hflush : ∀ (v : RegStage1) valid interrupt redirect brLast busy div mul fin xerc msr trace fp,
      f { v with
        e := { v.e with
          valid := valid, interrupt := interrupt, redirect := redirect, brLast := brLast }
        busy := busy
        divInProgress := div
        mulInProgress := mul
        mulFinish := fin
        xercValid := xerc
        msr := msr
        traceNext := trace
        fpExceptionNext := fp } = f v) :
    f (flush i (raise hasFpu s i (forwardXer (waitBits hasFpu s i (waitMul hasFpu s i
      (waitDiv hasFpu s i v)))))) = f v := by
  rw [flush_keeps i f _ hflush, raise_keeps hasFpu s i f _ hraise, forwardXer_keeps f _ hxer,
    waits_keep hasFpu s i f v hwaits]

end Keeps

/-! ## Fixed inputs -/

def Execute1ToWriteback.init : Execute1ToWriteback :=
  ⟨false, ⟨0, false⟩, false, false, false, 0, 0, false, 0, 0, false,
    ⟨false, false, false, false, false⟩, false, false, false, false, 0, false, 0, 0, false, false,
    false, 0⟩

/-- `actions_type_init`. -/
def Actions.init : Actions :=
  ⟨.init, .init, false, false, false, false, false, 0, false, false, .none, false, false, false, 0,
    0, 0⟩

/-- A cycle without an instruction. -/
def Input.idle : Input where
  eIn := ⟨false, .other, false, false, ⟨0, false, false, false, false, false⟩, 0, 0, false,
    false, 0, 0, false⟩
  actions := .init
  s1Result := 0
  toMultiply := ⟨false, 0, 0, 0, false, false⟩
  toDivider := ⟨false, false, 0, 0, false, false, false, false, false⟩
  rs := 0
  rb := 0
  flushIn := false
  interruptIn := false
  lBusy := false
  fpBusy := false
  waitState := false
  pmuIntr := false
  decSign := false
  dhdPending := false
  extIrq := false
  lpcrHeic := false
  lpcrLpes := false
  ctrlMsr := 0

/-- The state after reset, with the registers that reset leaves alone zero. -/
def State.cold : State where
  ex1 :=
    { e := .init
      se := .init
      busy := false
      fpExceptionNext := false
      traceNext := false
      traceCiabr := false
      prevOp := .other
      prevPrefixed := false
      oe := false
      mulSelect := 0
      res2Sel := 0
      sprSelect := ⟨0, false, false, false, false, false⟩
      pmuSprNum := 0
      redirToNext := false
      advanceNia := false
      lrFromNext := false
      mulInProgress := false
      mulFinish := false
      divInProgress := false
      bsortInProgress := false
      bpermInProgress := false
      noInstrAvail := false
      instrDispatch := false
      extInterrupt := false
      takenBranchEvent := false
      brMispredict := false
      msr := 0x9000000000000001
      xerc := ⟨false, false, false, false, false⟩
      xercValid := false
      ramsprWraddr := 0
      sprWriteData := 0
      ic := 0
      prefixed := false
      insn := 0
      insnPrefix := 0 }
  multiply := ⟨⟨false, 0, 0, 0, false, false⟩, ⟨false, 0⟩, ⟨false, 0⟩, false⟩
  divider := ⟨0, 0, 0, false, 0, false, false, false, false, false, false, false, ⟨false, 0, false⟩⟩
  bitsort := ⟨0, false, false, 0, 0, 0, 0, 0, 0, 0, 0, false, 0, false, 0, 0, 0⟩

/-- An instruction that starts `op` and writes a register. -/
def Input.issue (op : StartOp) : Input :=
  { Input.idle with
    eIn := { Input.idle.eIn with valid := true }
    actions := { Actions.init with
      e := { Execute1ToWriteback.init with writeEnable := true }
      start := op
      complete := op == .none } }

/-- A cycle with a flush. -/
def Input.flushed : Input :=
  { Input.idle with flushIn := true }

end Microwatt.Execute1
