import Microwatt.Wishbone
import Microwatt.Lib.Fair

/-!
# The debug unit of a core

`core_debug.vhdl`: the control actions and the log.  The log is a ring buffer of `2 ^ k` entries
that is written in every cycle, unless bit 31 of one of its two read addresses or a trigger stops
it.  The debug bus reads a doubleword of it at a time, through a pipeline that fetches it in
advance.
-/

namespace Microwatt.Debug

/-- `DBG_CORE_*`, the registers on the debug bus. -/
inductive DbgReg where
  | ctrl
  | stat
  | nia
  | msr
  | gsprIndex
  | gsprData
  | logAddr
  | logData
  | logTrigger
  | logMtrigger
deriving DecidableEq

/-- The register at an address. -/
def dbgReg (addr : BitVec 4) : Option DbgReg :=
  match addr with
  | 0b0000 => some .ctrl
  | 0b0001 => some .stat
  | 0b0010 => some .nia
  | 0b0011 => some .msr
  | 0b0100 => some .gsprIndex
  | 0b0101 => some .gsprData
  | 0b0110 => some .logAddr
  | 0b0111 => some .logData
  | 0b1000 => some .logTrigger
  | 0b1001 => some .logMtrigger
  | _ => none

/-- The registers; `2 ^ k` is `LOG_LENGTH`. -/
structure State (k : Nat) where
  dmiReq1 : Bool
  stopping : Bool
  terminated : Bool
  doStep : Bool
  doReset : Bool
  doIcreset : Bool
  gsprIndex : BitVec 8
  logDmiAddr : BitVec 32
  logDmiData : BitVec 64
  logDmiTrigger : BitVec 64
  logMemTrigger : BitVec 64
  doLogTrigger : Bool
  doLogMtrigger : Bool
  triggerWasLog : Bool
  triggerWasMem : Bool
  doDmiLogRd : Bool
  dmiReadLogData : Bool
  dmiReadLogData1 : Bool
  logTriggerDelay : Nat
  logArray : BitVec k → BitVec 256
  logRdPtrLatched : BitVec k
  logWrPtr : BitVec k
  logRd : BitVec 256
  logReadData : BitVec 64
  logDmiReading : Bool
  logDmiReadDone : Bool

/-- The inputs of a cycle; `gsprData` is what the register file or the unit with the SPR gives. -/
structure Input where
  rst : Bool
  dmiAddr : BitVec 4
  dmiDin : BitVec 64
  dmiReq : Bool
  dmiWr : Bool
  terminate : Bool
  coreStopped : Bool
  nia : BitVec 64
  msr : BitVec 64
  gsprData : BitVec 64
  wbSnoopIn : WishboneMasterOut
  logData : BitVec 256
  logReadAddr : BitVec 32

variable {k : Nat} (s : State k) (i : Input)

/-! ## Ports -/

/-- `core_stop`. -/
def coreStop : Bool := s.stopping && !s.doStep

/-- `log_write_addr`: the write pointer, below a bit that tells its length. -/
def logWriteAddr : BitVec 32 := BitVec.ofNat 32 (2 ^ k + s.logWrPtr.toNat)

/-- `stat_reg`. -/
def statReg : BitVec 64 :=
  (BitVec.ofBool s.terminated ++ BitVec.ofBool i.coreStopped ++
    BitVec.ofBool s.stopping).setWidth 64

/-- `dmi_dout`. -/
def dmiDout : BitVec 64 :=
  match dbgReg i.dmiAddr with
  | some .stat => statReg s i
  | some .nia => i.nia
  | some .msr => i.msr
  | some .gsprData => i.gsprData
  | some .logAddr => logWriteAddr s ++ s.logDmiAddr
  | some .logData => s.logDmiData
  | some .logTrigger => s.logDmiTrigger
  | some .logMtrigger => s.logMemTrigger
  | _ => 0

/-! ## `reg_write` -/

/-- The first cycle of a request. -/
def newReq : Bool := i.dmiReq && !s.dmiReq1

/-- A register is written. -/
def writes (r : DbgReg) : Bool := newReq s i && i.dmiWr && decide (dbgReg i.dmiAddr = some r)

/-- A bit of the control register is written as 1. -/
def acts (bit : Nat) : Bool := writes s i .ctrl && i.dmiDin.getLsbD bit

/-- A read of LOG_DATA has ended. -/
def logDataDone : Bool := !newReq s i && !s.dmiReadLogData && s.dmiReadLogData1

/-- `log_dmi_addr` after a doubleword; the low `LOG_INDEX_BITS + 2` bits count. -/
def nextDword (k : Nat) (a : BitVec 32) : BitVec 32 :=
  BitVec.ofNat 32 (a.toNat / 2 ^ (k + 2) * 2 ^ (k + 2) + (a.toNat + 1) % 2 ^ (k + 2))

/-- A trigger counts down to the end of the log. -/
def triggering : Bool := s.doLogTrigger || s.doLogMtrigger || s.logTriggerDelay != 0

/-- The countdown is over. -/
def triggered : Bool :=
  triggering s && (s.logTriggerDelay == 255 ||
    (decide (2 ^ k < 1024) && s.logTriggerDelay == 2 ^ k / 4))

/-- Bit 1 of a trigger register. -/
def setBit1 (x : BitVec 64) (b : Bool) : BitVec 64 :=
  (x &&& ~~~2#64) ||| (BitVec.ofBool b).setWidth 64 <<< 1

/-- A trigger register. -/
def triggerNext (x : BitVec 64) (was : Bool) (r : DbgReg) : BitVec 64 :=
  if i.rst then x
  else if writes s i r then i.dmiDin
  else if triggered s then setBit1 x was
  else x

/-- The memory of a trigger that is counting down. -/
def wasNext (was now : Bool) : Bool :=
  !i.rst && (now || was && !triggered s)

/-! ## The log -/

/-- `log_wr_enable`; the top bits of the read addresses stop the log. -/
def logWrEnable : Bool :=
  !(i.logReadAddr.getLsbD 31 || s.logDmiAddr.getLsbD 31 || s.logDmiTrigger.getLsbD 1 ||
    s.logMemTrigger.getLsbD 1)

/-- `select_dword`. -/
def selectDword (data : BitVec 256) (addr : BitVec 32) : BitVec 64 :=
  data.extractLsb' (addr.toNat % 4 * 64) 64

/-- The entry that a read address is in. -/
def entryOf (k : Nat) (addr : BitVec 32) : BitVec k := addr.extractLsb' 2 k

/-- The address trigger. -/
def logTriggerHit : Bool :=
  i.logData.getLsbD 42 == s.logDmiTrigger.getLsbD 63 &&
    i.logData.extractLsb' 0 42 == s.logDmiTrigger.extractLsb' 2 42 && s.logDmiTrigger.getLsbD 0

/-- The trigger for writes to memory. -/
def logMtriggerHit : Bool :=
  i.wbSnoopIn.cyc && i.wbSnoopIn.stb && i.wbSnoopIn.we &&
    i.wbSnoopIn.adr == s.logMemTrigger.extractLsb' 3 29 && s.logMemTrigger.getLsbD 0

/-- A rising edge. -/
def step : State k where
  dmiReq1 := if i.rst then s.dmiReq1 else i.dmiReq
  -- terminate comes last, and start after stop
  stopping := !i.rst && (i.terminate || !acts s i 4 && (acts s i 0 || s.stopping))
  terminated := !i.rst && (i.terminate || !(acts s i 1 || acts s i 3 || acts s i 4) && s.terminated)
  doStep := !i.rst && acts s i 3
  doReset := !i.rst && acts s i 1
  doIcreset := !i.rst && acts s i 2
  gsprIndex :=
    if i.rst then 0 else if writes s i .gsprIndex then i.dmiDin.setWidth 8 else s.gsprIndex
  logDmiAddr :=
    if i.rst then 0
    else if writes s i .logAddr then i.dmiDin.setWidth 32
    else if logDataDone s i then nextDword k s.logDmiAddr
    else s.logDmiAddr
  logDmiData := if s.logDmiReadDone then selectDword s.logRd s.logDmiAddr else s.logDmiData
  logDmiTrigger := triggerNext s i s.logDmiTrigger s.triggerWasLog .logTrigger
  logMemTrigger := triggerNext s i s.logMemTrigger s.triggerWasMem .logMtrigger
  doLogTrigger := logTriggerHit s i
  doLogMtrigger := logMtriggerHit s i
  triggerWasLog := wasNext s i s.triggerWasLog s.doLogTrigger
  triggerWasMem := wasNext s i s.triggerWasMem s.doLogMtrigger
  doDmiLogRd := !i.rst && (writes s i .logAddr || logDataDone s i)
  dmiReadLogData :=
    if i.rst then s.dmiReadLogData
    else i.dmiReq && decide (dbgReg i.dmiAddr = some .logData)
  dmiReadLogData1 := if i.rst then s.dmiReadLogData1 else s.dmiReadLogData
  logTriggerDelay :=
    if i.rst || triggered s then 0
    else if triggering s then s.logTriggerDelay + 1
    else s.logTriggerDelay
  logArray :=
    if logWrEnable s i then Function.update s.logArray s.logWrPtr i.logData else s.logArray
  logRdPtrLatched := entryOf k (if s.doDmiLogRd then s.logDmiAddr else i.logReadAddr)
  logWrPtr := if i.rst then 0 else if logWrEnable s i then s.logWrPtr + 1 else s.logWrPtr
  logRd := s.logArray s.logRdPtrLatched
  logReadData :=
    if s.logDmiReadDone then s.logReadData else selectDword s.logRd i.logReadAddr
  logDmiReading := s.doDmiLogRd
  logDmiReadDone := s.logDmiReading

end Microwatt.Debug
