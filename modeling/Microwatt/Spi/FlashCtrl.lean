import Microwatt.Lib.Bits
import Microwatt.Soc.SlaveIo
import Microwatt.Spi.Rxtx

/-!
# The flash controller

`spi_flash_ctrl`: the registers, the requests of the bus with the buffer for one that comes while
another waits, and the machine that turns a read of the memory map into commands to the shifter.
-/

namespace Microwatt.Spi

open Soc (WbIoMasterOut WbIoSlaveOut)

/-- The generics. -/
structure Config where
  defClkDiv : Nat
  defQuadRead : Bool
  bootClocks : Bool
  dataLines : Nat

/-! ## Constants -/

def spiRegData : BitVec 3 := 0

def spiRegCtrl : BitVec 3 := 1

def spiRegAutoCfg : BitVec 3 := 2

def spiRegInvalid : BitVec 3 := 7

/-- `SPI_AUTO_CFG_MODE_SINGLE`. -/
def modeSingle : BitVec 2 := 0

/-- `SPI_AUTO_CFG_MODE_DUAL`. -/
def modeDual : BitVec 2 := 2

/-- `SPI_AUTO_CFG_MODE_QUAD`. -/
def modeQuad : BitVec 2 := 3

def csDelayAssert : Nat := 1

def csDelayRecovery : Nat := 10

def defaultCsTimeout : Nat := 32

/-! ## Registers -/

/-- `auto_state_t`.  The states that belong to a byte of the address or of the data have its
number. -/
inductive AutoState where
  | boot | idle | csOn | cmd
  | adr (i : Fin 4)
  | dummy
  | dat (i : Fin 4)
  | datData (i : Fin 4)
  | sendAck | waitReq | recovery
deriving DecidableEq

structure State where
  ctrlReg : BitVec 16
  autoCfg : BitVec 30
  pendingRead : Bool
  wbReq : WbIoMasterOut
  wbStash : WbIoMasterOut
  wbOut : WbIoSlaveOut
  autoData : BitVec 32
  autoCnt : Nat
  autoState : AutoState
  autoLastAddr : BitVec 32
  rxtx : Rxtx
deriving DecidableEq

/-- The bus with the two selects, and the data lines. -/
structure Input where
  wbIn : WbIoMasterOut
  wbSelReg : Bool
  wbSelMap : Bool
  sdatI : BitVec 4

section

variable (g : Config) (s : State) (i : Input)

def ctrlReset : Bool :=
  s.ctrlReg.getLsbD 0

def ctrlCs : Bool :=
  s.ctrlReg.getLsbD 1

def ctrlDiv : BitVec 8 :=
  s.ctrlReg.extractLsb' 8 8

def autoCfgCmd : BitVec 8 :=
  s.autoCfg.extractLsb' 0 8

def autoCfgDummies : BitVec 3 :=
  s.autoCfg.extractLsb' 8 3

def autoCfgMode : BitVec 2 :=
  s.autoCfg.extractLsb' 11 2

def autoCfgAddr4 : Bool :=
  s.autoCfg.getLsbD 13

def autoCfgDiv : BitVec 8 :=
  s.autoCfg.extractLsb' 16 8

def autoCfgCstout : BitVec 6 :=
  s.autoCfg.extractLsb' 24 6

/-- The registers that `ctrl_reset` sets. -/
def defaultCfg : BitVec 30 :=
  BitVec.ofNat 6 defaultCsTimeout ++ BitVec.ofNat 8 g.defClkDiv ++ 0#3 ++
    if g.defQuadRead then modeQuad ++ 7#3 ++ 0x6b#8 else modeSingle ++ 0#3 ++ 0x03#8

def defaultCtrl : BitVec 16 :=
  BitVec.ofNat 8 g.defClkDiv ++ (s.ctrlReg.extractLsb' 4 4 ++ 0#4)

/-! ## Decoding of requests -/

def wbValid : Bool :=
  s.wbReq.stb && s.wbReq.cyc

def wbRegValid : Bool :=
  wbValid s && i.wbSelReg

def wbMapValid : Bool :=
  wbValid s && i.wbSelMap

/-- `wb_reg`. -/
def wbReg : BitVec 3 :=
  if wbRegValid s i then s.wbReq.adr.extractLsb' 0 3 else spiRegInvalid

def wbRegDatV : Bool :=
  wbReg s i == spiRegData

/-- The flash address of the request. -/
def addr : BitVec 32 :=
  0#2 ++ s.wbReq.adr.extractLsb' 0 28 ++ 0#2

def reqIsNext : Bool :=
  addr s == s.autoLastAddr

/-- A byte of the address, the lowest one first. -/
def addrByte (a : BitVec 32) (j : Fin 4) : BitVec 8 :=
  a.extractLsb' (8 * j.val) 8

/-! ## The automatic machine -/

def modeToClks (mode : BitVec 2) : BitVec 3 :=
  if mode = modeQuad then 1
  else if mode = modeDual then 3
  else 7

/-- The outputs of `auto_comb`, apart from the chip select. -/
structure AutoOut where
  ack : Bool
  cmdValid : Bool
  cmdMode : BitVec 3
  dTxd : BitVec 8
  dClks : BitVec 3
  latchAdr : Bool
  next : AutoState
  cntNext : Nat
  dataNext : BitVec 32

/-- The outputs of a state that does nothing. -/
def AutoOut.default (next : AutoState) (cnt : Nat) (data : BitVec 32) : AutoOut where
  ack := false
  cmdValid := false
  cmdMode := 1
  dTxd := 0
  dClks := 7
  latchAdr := false
  next := next
  cntNext := cnt
  dataNext := data

/-- A byte of the data register. -/
def setByte (data : BitVec 32) (j : Fin 4) (b : BitVec 8) : BitVec 32 :=
  (data &&& ~~~(0xff#32 <<< (8 * j.val))) ||| (b.setWidth 32 <<< (8 * j.val))

/-- `auto_cs`. -/
def autoCs : Bool :=
  !ctrlReset s && s.autoState != .idle && s.autoState != .recovery && s.autoState != .boot

/-- The other outputs of `auto_comb`. -/
def autoComb : AutoOut :=
  if ctrlReset s then AutoOut.default .boot 0 s.autoData
  else
    let ready := nextCmd s.rxtx
    let o :=
      AutoOut.default s.autoState (if s.autoCnt ≠ 0 then s.autoCnt - 1 else s.autoCnt) s.autoData
    match s.autoState with
    | .boot =>
        if g.bootClocks then
          { o with
            cmdValid := true
            next := if ready then .idle else .boot }
        else { o with next := .idle }
    | .idle =>
        if wbMapValid s i && !ctrlCs s then
          -- writes are ignored
          if s.wbReq.we then { o with ack := true }
          else { o with next := .csOn, cntNext := csDelayAssert }
        else o
    | .csOn => if s.autoCnt = 0 then { o with next := .cmd } else o
    | .cmd =>
        { o with
          dTxd := autoCfgCmd s
          cmdValid := true
          next := if ready then (if autoCfgAddr4 s then .adr 3 else .adr 2) else .cmd }
    | .adr j =>
        { o with
          dTxd := addrByte (addr s) j
          cmdValid := true
          next :=
            if ready then
              match j with
              | 3 => .adr 2
              | 2 => .adr 1
              | 1 => .adr 0
              | 0 => if autoCfgDummies s = 0 then .dat 0 else .dummy
            else .adr j }
    | .dummy =>
        { o with
          cmdValid := true
          dClks := autoCfgDummies s
          next := if ready then .dat 0 else .dummy }
    | .dat j =>
        { o with
          cmdValid := true
          cmdMode := autoCfgMode s ++ 0#1
          dClks := modeToClks (autoCfgMode s)
          next := if ready then .datData j else .dat j }
    | .datData j =>
        if s.rxtx.dAck then
          { o with
            dataNext := setByte s.autoData j s.rxtx.ireg
            next :=
              match j with
              | 0 => .dat 1
              | 1 => .dat 2
              | 2 => .dat 3
              | 3 => .sendAck
            latchAdr := j == 3 }
        else o
    | .sendAck => { o with ack := true, cntNext := (autoCfgCstout s).toNat, next := .waitReq }
    | .waitReq =>
        if wbMapValid s i && reqIsNext s && !s.wbReq.we then { o with next := .dat 0 }
        else if wbMapValid s i || wbRegValid s i || s.autoCnt == 0 then
          { o with cntNext := csDelayRecovery, next := .recovery }
        else o
    | .recovery => if s.autoCnt = 0 then { o with next := .idle } else o

/-! ## Commands -/

/-- `wb_request_comb`. -/
def cmdOut : Cmd :=
  if ctrlCs s then
    { valid := wbRegDatV s i && !(s.pendingRead && s.wbReq.we)
      clkDiv := (ctrlDiv s).toNat
      mode :=
        (if s.wbReq.sel = 2 then 2#2 else if s.wbReq.sel = 4 then 3#2 else 1#2) ++
          BitVec.ofBool s.wbReq.we
      clks := if s.wbReq.sel = 2 then 3 else if s.wbReq.sel = 4 then 1 else 7
      txd := s.wbReq.dat.extractLsb' 0 8 }
  else
    let o := autoComb g s i
    { valid := o.cmdValid
      clkDiv := (autoCfgDiv s).toNat
      mode := o.cmdMode
      clks := o.dClks
      txd := o.dTxd }

/-- `cs_n`. -/
def csN : Bool :=
  if ctrlCs s then !ctrlCs s else !autoCs s

/-! ## The bus -/

/-- The registers can be used: nothing is under way. -/
def regReady : Bool :=
  s.autoState == .idle && busIdle s.rxtx

/-- `wb_response_comb`. -/
def wbRsp : WbIoSlaveOut :=
  let rxData := 0#8 ++ s.rxtx.ireg ++ s.rxtx.ireg ++ s.rxtx.ireg
  let rsp : WbIoSlaveOut :=
    if wbMapValid s i then
      { dat := s.autoData, ack := (autoComb g s i).ack, stall := !(autoComb g s i).ack }
    else if ctrlCs s && wbReg s i == spiRegData then
      if s.wbReq.we && s.pendingRead then { dat := rxData, ack := false, stall := true }
      else { dat := rxData, ack := s.wbReq.we && nextCmd s.rxtx, stall := !nextCmd s.rxtx }
    else if wbRegValid s i then
      if regReady s then
        { dat :=
            if wbReg s i = spiRegCtrl then s.ctrlReg.setWidth 32
            else if wbReg s i = spiRegAutoCfg then s.autoCfg.setWidth 32
            else rxData
          ack := true
          stall := false }
      else { dat := rxData, ack := false, stall := true }
    else { dat := rxData, ack := false, stall := false }
  if ctrlCs s && s.rxtx.dAck then { rsp with ack := true } else rsp

/-- The bits of the bytes that are selected. -/
def selMask (sel : BitVec 4) : BitVec 32 :=
  (BitVec.ofBool (sel.getLsbD 3)).signExtend 8 ++ (BitVec.ofBool (sel.getLsbD 2)).signExtend 8 ++
    (BitVec.ofBool (sel.getLsbD 1)).signExtend 8 ++ (BitVec.ofBool (sel.getLsbD 0)).signExtend 8

/-- `reg_wr`. -/
def regWr {w : Nat} (r : BitVec w) (q : WbIoMasterOut) : BitVec w :=
  (r &&& ~~~(selMask q.sel).setWidth w) ||| (q.dat &&& selMask q.sel).setWidth w

/-- A register is written at this edge. -/
def writes (reg : BitVec 3) : Bool :=
  wbRegValid s i && s.wbReq.we && regReady s && wbReg s i == reg

/-! ## One edge -/

def step : State where
  ctrlReg :=
    let r := if ctrlReset s then defaultCtrl g s else s.ctrlReg
    if writes s i spiRegCtrl then regWr s.ctrlReg s.wbReq else r
  autoCfg :=
    let r := if ctrlReset s then defaultCfg g else s.autoCfg
    if writes s i spiRegAutoCfg then regWr s.autoCfg s.wbReq else r
  pendingRead :=
    if (cmdOut g s i).valid && nextCmd s.rxtx then !s.wbReq.we
    else if busIdle s.rxtx then false
    else s.pendingRead
  wbReq :=
    let rsp := wbRsp g s i
    if rsp.stall then s.wbReq
    else if s.wbOut.stall then s.wbStash
    else if i.wbIn.cyc then i.wbIn
    else { s.wbReq with cyc := i.wbIn.cyc, stb := i.wbIn.stb }
  wbStash :=
    if (wbRsp g s i).stall && !s.wbOut.stall && i.wbIn.cyc && i.wbIn.stb then i.wbIn else s.wbStash
  wbOut :=
    let rsp := wbRsp g s i
    let out :=
      if rsp.stall && !s.wbOut.stall && i.wbIn.cyc && i.wbIn.stb then { rsp with stall := true }
      else rsp
    if !rsp.stall && s.wbOut.stall then { out with stall := false } else out
  autoData := (autoComb g s i).dataNext
  autoCnt := (autoComb g s i).cntNext
  autoState := (autoComb g s i).next
  autoLastAddr := if (autoComb g s i).latchAdr then addr s + 4 else s.autoLastAddr
  rxtx := s.rxtx.step (cmdOut g s i) g.dataLines i.sdatI

/-- What a reset leaves, held until the pulses on the way have gone.  The request is in a register
that has no reset, and holds none. -/
structure State.Reset : Prop where
  ctrlReg : s.ctrlReg = defaultCtrl g s
  autoCfg : s.autoCfg = defaultCfg g
  wbReq : s.wbReq.stb = false
  stash : s.wbStash.stb = false
  out : s.wbOut.ack = false ∧ s.wbOut.stall = false
  autoLastAddr : s.autoLastAddr = 0
  autoState : s.autoState = .boot
  autoCnt : s.autoCnt = 0
  autoData : s.autoData = 0
  sck : s.rxtx.sck0 = true ∧ s.rxtx.sck1 = true
  pulses : s.rxtx.sckSend = false ∧ s.rxtx.sckRecv = false ∧ s.rxtx.datAckL = false ∧
    s.rxtx.dAck = false
  divider : s.rxtx.clkDiv = 0 ∧ s.rxtx.counter = 0
  standby : s.rxtx.state = .standby
  cmdMode : s.rxtx.cmdMode = 0
  bitCount : s.rxtx.bitCount = 0

end

end Microwatt.Spi
