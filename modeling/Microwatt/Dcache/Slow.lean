import Microwatt.Dcache.Request

/-!
# The memory access state machine

The process `dcache_slow` of `dcache.vhdl`, outside reset.  A signal assignment
of the process takes effect at the clock edge and the last one wins, so the
process is a chain of updates of the next register values `n`, each reading only
the values `s` before the edge.  There is one update for each section of the
process and one for each state of the machine.
-/

namespace Microwatt.Dcache

variable {g : Geometry}

/-- The variable `req`: the request in `r1` if there is one, else the one formed
from `r0`. -/
def r0Request (s : State g) (i : Input) : MemAccessRequest g where
  opLmiss := reqOp s i == .loadMiss
  opStore := reqOp s i == .store
  opFlush := reqOp s i == .flush
  opSync := reqOp s i == .sync
  nc := reqNc s
  valid := reqGo s i
  mmuReq := s.r0.mmuReq
  dcbz := s.r0.req.dcbz
  flush := s.r0.req.flush
  touch := s.r0.req.touch
  sync := s.r0.req.sync
  reserve := s.r0.req.reserve
  firstDw := !s.r0.req.atomicQw || s.r0.req.atomicFirst
  lastDw := !s.r0.req.atomicQw || s.r0.req.atomicLast
  realAddr := ra s
  tlbHit := tlbHit s i
  tlbIndex := getTlbIndex s.r0.req.addr
  tlbWay := tlbHitWay s
  -- dcbz stores zeros
  data := if s.r0.req.dcbz then 0 else if s.r0.dValid then s.r0.req.data else i.dIn.data
  byteSel :=
    if s.r0.req.dcbz || (s.r0.req.load && !s.r0.req.nc && !(permAttr s).nocache) then
      BitVec.allOnes 8
    else s.r0.req.byteSel
  hitWay := reqHitWay s i
  hitWays := reqHitWays s i
  isHit := reqIsHit s i
  hitReload := reqHitReload s i && reqOp s i == .loadMiss
  samePage := reqSamePage s

/-- `req` of this cycle. -/
def curReq (s : State g) (i : Input) : MemAccessRequest g :=
  if s.r1.full then s.r1.req else r0Request s i

/-- The slow operations, which set `r1.full`. -/
def reqSlow (s : State g) (i : Input) : Bool :=
  reqOp s i == .loadMiss || reqOp s i == .store || reqOp s i == .flush || reqOp s i == .sync

/-- One cycle pulses, and the completions of requests that need no memory
access. -/
def slowPulses (s : State g) (i : Input) (n : SlowRegs g) : SlowRegs g :=
  { n with
    chooseVictim := false
    slowValid := false
    writeBram := false
    stcxFail := false
    lsValid := (reqOp s i == .loadHit || reqOp s i == .nop) && !s.r0.mmuReq
    mmuDone := reqOp s i == .loadHit && s.r0.mmuReq }

/-- Clear the reservation if another entity writes to that line; set it for a
load-reserve that hits. -/
def slowReservation (s : State g) (i : Input) (n : SlowRegs g) : SlowRegs g :=
  let n := if killRsrv s then { n with reservation.valid := false } else n
  if reqGo s i && accessOk s i && s.r0.req.load && s.r0.req.reserve && s.r0.req.atomicFirst then
    { n with reservation := ⟨reqIsHit s i && !reqSnoopHit s i, getLine (ra s)⟩ }
  else n

/-- Invalidations from snooped stores to memory. -/
def slowSnoop (s : State g) (n : SlowRegs g) : SlowRegs g :=
  { n with
    cacheValids := fun ix w =>
      if ix = getIndex s.rams.snoopPaddr ∧ snoopHits s w then false else n.cacheValids ix w }

/-- Store the new tag in the selected way and set the line valid. -/
def slowWriteTag (s : State g) (n : SlowRegs g) : SlowRegs g :=
  if s.r1.writeTag then
    { n with
      cacheTags := fun ix w =>
        if ix = s.r1.storeIndex ∧ w = replaceWay s then s.r1.reloadTag else n.cacheTags ix w
      storeWay := replaceWay s
      storeWays := fun w => w == replaceWay s
      writeTag := false
      cacheValids := fun ix w =>
        if ix = s.r1.storeIndex ∧ w = replaceWay s then true else n.cacheValids ix w
      prevHitWays := fun w => w == replaceWay s }
  else n

/-- Store the incoming request from `r0`. -/
def slowTake (s : State g) (i : Input) (n : SlowRegs g) : SlowRegs g :=
  let n :=
    if !s.r1.full && reqGo s i then { n with req := r0Request s i, full := reqSlow s i } else n
  if i.mIn.tlbld || i.mIn.tlbie then { n with lsTlbHit := false } else n

/-- Signals for PLRU update, victim selection and the second half of lqarx. -/
def slowVictim (s : State g) (i : Input) (n : SlowRegs g) : SlowRegs g :=
  let n := { n with hitWay := reqHitWay s i, hitIndex := reqIndex s }
  let n := if s.r1.chooseVictim then { n with victimWay := plruVictim s } else n
  let n :=
    if reqOp s i == .loadMiss || (s.r0.req.dcbz && !reqIsHit s i) then
      { n with chooseVictim := true }
    else n
  if reqGo s i then
    { n with
      prevHit := reqIsHit s i
      prevWay := reqHitWay s i
      prevHitWays := reqHitWays s i
      prevHitReload := reqHitReload s i }
  else n

/-- The variable `acks`: strobes presented minus acks seen. -/
def acksNow (s : State g) : BitVec 3 :=
  if !s.r1.wb.cyc then 0
  else if s.r1.wb.stb && !s.r1.stalled && !s.r1.decAcks then s.r1.acksPending + 1
  else if (!s.r1.wb.stb || s.r1.stalled) && s.r1.decAcks then s.r1.acksPending - 1
  else s.r1.acksPending

/-- Update the count of pending acks. -/
def slowAcks (s : State g) (i : Input) (n : SlowRegs g) : SlowRegs g :=
  { n with
    acksPending := acksNow s
    stalled := i.wishboneIn.stall && s.r1.wb.cyc
    decAcks := i.wishboneIn.ack && s.r1.wb.cyc }

/-! ## The states -/

/-- What `IDLE` sets up for whatever request comes. -/
def idleSetup (req : MemAccessRequest g) (n : SlowRegs g) : SlowRegs g :=
  let n :=
    { n with
      wb := { n.wb with adr := addrToWb req.realAddr, sel := req.byteSel, dat := req.data }
      dcbz := req.dcbz && req.valid
      atomicMore := !req.lastDw
      storeIndex := getIndex req.realAddr
      storeRow := getRow req.realAddr
      endRowIx := getRowOfLine (getRow req.realAddr : Row g) - 1
      reloadTag := getTag req.realAddr
      req.hitReload := true
      lsTlbHit := req.tlbHit && !req.mmuReq
      tlbAccIndex := req.tlbIndex
      tlbAccWay := req.tlbWay
      rowsValid := fun _ => false }
  if req.isHit then { n with storeWay := req.hitWay, storeWays := req.hitWays } else n

/-- `IDLE` with a load miss: start the reload machine, or a non-cacheable
load.  A touch completes at once. -/
def idleLmiss (req : MemAccessRequest g) (n : SlowRegs g) : SlowRegs g :=
  if req.opLmiss then
    let n := { n with wb := { n.wb with we := false, cyc := true, stb := true } }
    if req.nc then { n with state := .ncLoadWaitAck }
    else
      let n := { n with state := .reloadWaitAck, reloading := true, writeTag := true }
      if req.touch then { n with full := false, slowValid := true, lsValid := true } else n
  else n

/-- `IDLE` with a store, a store-conditional or a dcbz. -/
def idleStore (s : State g) (req : MemAccessRequest g) (n : SlowRegs g) : SlowRegs g :=
  if req.opStore then
    if req.reserve then
      if !s.r1.reservation.valid || killRsrv s then
        { n with stcxFail := true, full := false, lsValid := true }
      else
        -- stb waits for the reservation address check
        { n with wb := { n.wb with we := true, cyc := true }, state := .doStcx }
    else if !req.dcbz then
      let n :=
        { n with
          state := .storeWaitAck
          full := false
          slowValid := true
          writeBram := req.isHit
          wb := { n.wb with we := true, cyc := true, stb := true } }
      if !req.mmuReq then { n with lsValid := true } else { n with mmuDone := true }
    else
      { n with
        state := .reloadWaitAck
        reloading := !req.nc
        writeTag := !req.nc && !req.isHit
        wb := { n.wb with we := true, cyc := true, stb := true } }
  else n

/-- `IDLE` with a flush or a sync. -/
def idleFlushSync (req : MemAccessRequest g) (n : SlowRegs g) : SlowRegs g :=
  let n := if req.opFlush then { n with state := .flushCycle } else n
  if req.opSync then { n with full := false, slowValid := true, lsValid := true } else n

/-- State `IDLE`. -/
def slowIdle (s : State g) (i : Input) (n : SlowRegs g) : SlowRegs g :=
  let req := curReq s i
  idleFlushSync req (idleStore s req (idleLmiss req (idleSetup req n)))

/-- `RELOAD_WAIT_ACK`: if we are still sending requests, was one accepted? -/
def reloadSend (s : State g) (i : Input) (n : SlowRegs g) : SlowRegs g :=
  if !i.wishboneIn.stall && s.r1.wb.stb then
    let n :=
      if isLastRowWbAddr s.r1.wb.adr s.r1.endRowIx then { n with wb.stb := false } else n
    { n with wb.adr := nextRowWbAddr g s.r1.wb.adr }
  else n

/-- The row now arriving is the one that `req` waits for. -/
def reloadMatch (s : State g) (i : Input) : Bool :=
  (curReq s i).hitReload &&
    getRowOfLine s.r1.storeRow == getRowOfLine (getRow (curReq s i).realAddr : Row g)

/-- `RELOAD_WAIT_ACK`: complete the request whose row is arriving. -/
def reloadComplete (s : State g) (i : Input) (n : SlowRegs g) : SlowRegs g :=
  if reloadMatch s i then
    let n := { n with full := false, slowValid := true }
    let n := if !s.fast.mmuReq then { n with lsValid := true } else { n with mmuDone := true }
    if s.r1.req.reserve && s.r1.req.firstDw then { n with reservation.valid := true } else n
  else n

/-- State `RELOAD_WAIT_ACK`. -/
def slowReload (s : State g) (i : Input) (n : SlowRegs g) : SlowRegs g :=
  let n := reloadSend s i n
  if i.wishboneIn.ack then
    let n :=
      { n with
        rowsValid := fun r => if r = s.r1.storeRow.rowOfLine then true else n.rowsValid r }
    let n := reloadComplete s i n
    let n :=
      if isLastRow s.r1.storeRow s.r1.endRowIx then
        { n with
          wb.cyc := false
          reloading := false
          prevHit := s.r1.prevHitReload
          prevWay := s.r1.storeWay
          prevHitWays := s.r1.storeWays
          state := .idle }
      else n
    { n with storeRow := nextRow s.r1.storeRow }
  else n

/-- The store in `req` can be added to the open wishbone cycle. -/
def mergeable (s : State g) (req : MemAccessRequest g) : Bool :=
  req.opStore && req.samePage && !req.dcbz && (!req.reserve || s.r1.atomicMore)

/-- `STORE_WAIT_ACK` when the bus is not stalled: see if there is another store
to the same real page. -/
def storeMerge (s : State g) (req : MemAccessRequest g) (n : SlowRegs g) : SlowRegs g :=
  let n :=
    if req.valid then
      { n with
        wb := { n.wb with
          adr := setLowBits s.r1.wb.adr (req.realAddr.extractLsb' 3 (g.tlbLgPgsz - 3))
          dat := req.data
          sel := req.byteSel } }
    else n
  let n := { n with wb.stb := false }
  if mergeable s req then
    if acksNow s < 7#3 then
      { n with
        wb.stb := true
        storeWay := req.hitWay
        storeWays := req.hitWays
        storeRow := getRow req.realAddr
        writeBram := req.isHit
        atomicMore := !req.lastDw
        full := false
        slowValid := true
        lsValid := true }
    else n
  else if req.valid then { n with atomicMore := false } else n

/-- The variable `stbs_done`. -/
def stbsDone (s : State g) (i : Input) : Bool :=
  if i.wishboneIn.stall then !s.r1.wb.stb
  else if mergeable s (curReq s i) then
    if acksNow s < 7#3 then false else !s.r1.wb.stb
  else true

/-- State `STORE_WAIT_ACK`. -/
def slowStoreWait (s : State g) (i : Input) (n : SlowRegs g) : SlowRegs g :=
  let n := if i.wishboneIn.stall then n else storeMerge s (curReq s i) n
  if stbsDone s i && !s.r1.atomicMore &&
      (acksNow s == 0#3 || (i.wishboneIn.ack && acksNow s == 1#3)) then
    { n with state := .idle, wb := { n.wb with cyc := false, stb := false } }
  else n

/-- State `NC_LOAD_WAIT_ACK`. -/
def slowNcLoad (s : State g) (i : Input) (n : SlowRegs g) : SlowRegs g :=
  let n := if i.wishboneIn.stall then n else { n with wb.stb := false }
  if i.wishboneIn.ack then
    let n := { n with state := .idle, full := false, slowValid := true }
    let n := if !s.fast.mmuReq then { n with lsValid := true } else { n with mmuDone := true }
    { n with wb := { n.wb with cyc := false, stb := false } }
  else n

/-- State `DO_STCX`. -/
def slowDoStcx (s : State g) (i : Input) (n : SlowRegs g) : SlowRegs g :=
  if !s.r1.reservation.valid || killRsrv s ||
      getLine s.r1.req.realAddr != s.r1.reservation.addr then
    { n with
      stcxFail := true
      full := false
      lsValid := true
      wb.cyc := false
      reservation.valid := false
      state := .idle }
  else if !i.wishboneIn.stall then
    { n with
      writeBram := s.r1.req.isHit
      wb.stb := true
      full := false
      slowValid := true
      lsValid := true
      reservation.valid := false
      state := .storeWaitAck }
  else n

/-- State `FLUSH_CYCLE`. -/
def slowFlush (s : State g) (n : SlowRegs g) : SlowRegs g :=
  { n with
    cacheValids := fun ix w =>
      if ix = s.r1.storeIndex ∧ w = s.r1.storeWay then false else n.cacheValids ix w
    full := false
    slowValid := true
    lsValid := true
    state := .idle }

/-- The main state machine. -/
def slowMachine (s : State g) (i : Input) (n : SlowRegs g) : SlowRegs g :=
  match s.r1.state with
  | .idle => slowIdle s i n
  | .reloadWaitAck => slowReload s i n
  | .storeWaitAck => slowStoreWait s i n
  | .ncLoadWaitAck => slowNcLoad s i n
  | .doStcx => slowDoStcx s i n
  | .flushCycle => slowFlush s n

/-- What `dcache_slow` does before it comes to the state machine. -/
def slowCommon (s : State g) (i : Input) : SlowRegs g :=
  slowAcks s i (slowVictim s i (slowTake s i (slowWriteTag s (slowSnoop s
    (slowReservation s i (slowPulses s i s.r1))))))

/-- The process `dcache_slow`. -/
def dcacheSlow (s : State g) (i : Input) : SlowRegs g :=
  slowMachine s i (slowCommon s i)

end Microwatt.Dcache
