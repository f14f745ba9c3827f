import Microwatt.Dcache.Step

/-!
# The registers after a clock edge

`dcache_slow` is a chain of conditional record updates.  Here each section of it
is turned into one record whose fields are given by equations, so that later
proofs never unfold the process: `slowCommon_eq` for what happens before the
state machine and one `_eq` lemma for each state.
-/

namespace Microwatt.Dcache

variable {g : Geometry} (s : State g) (i : Input) (n : SlowRegs g)

/-! ## Before the state machine -/

theorem slowReservation_eq : slowReservation s i n =
    { n with
      reservation :=
        if reqGo s i && accessOk s i && s.r0.req.load && s.r0.req.reserve &&
            s.r0.req.atomicFirst then
          ⟨reqIsHit s i && !reqSnoopHit s i, getLine (ra s)⟩
        else if killRsrv s then ⟨false, n.reservation.addr⟩ else n.reservation } := by
  unfold slowReservation
  split_ifs <;> rfl

theorem slowWriteTag_eq : slowWriteTag s n =
    { n with
      cacheTags := fun ix w =>
        if s.r1.writeTag ∧ ix = s.r1.storeIndex ∧ w = replaceWay s then s.r1.reloadTag
        else n.cacheTags ix w
      storeWay := if s.r1.writeTag then replaceWay s else n.storeWay
      storeWays := if s.r1.writeTag then fun w => w == replaceWay s else n.storeWays
      writeTag := if s.r1.writeTag then false else n.writeTag
      cacheValids := fun ix w =>
        if s.r1.writeTag ∧ ix = s.r1.storeIndex ∧ w = replaceWay s then true
        else n.cacheValids ix w
      prevHitWays := if s.r1.writeTag then fun w => w == replaceWay s else n.prevHitWays } := by
  unfold slowWriteTag
  cases s.r1.writeTag <;> simp

theorem slowTake_eq : slowTake s i n =
    { n with
      req := if !s.r1.full && reqGo s i then r0Request s i else n.req
      full := if !s.r1.full && reqGo s i then reqSlow s i else n.full
      lsTlbHit := if i.mIn.tlbld || i.mIn.tlbie then false else n.lsTlbHit } := by
  unfold slowTake
  split_ifs <;> rfl

theorem slowVictim_eq : slowVictim s i n =
    { n with
      hitWay := reqHitWay s i
      hitIndex := reqIndex s
      victimWay := if s.r1.chooseVictim then plruVictim s else n.victimWay
      chooseVictim :=
        if reqOp s i == .loadMiss || (s.r0.req.dcbz && !reqIsHit s i) then true
        else n.chooseVictim
      prevHit := if reqGo s i then reqIsHit s i else n.prevHit
      prevWay := if reqGo s i then reqHitWay s i else n.prevWay
      prevHitWays := if reqGo s i then reqHitWays s i else n.prevHitWays
      prevHitReload := if reqGo s i then reqHitReload s i else n.prevHitReload } := by
  unfold slowVictim
  split_ifs <;> rfl

/-- What `dcache_slow` does before it comes to the state machine. -/
theorem slowCommon_eq : slowCommon s i =
    { s.r1 with
      full := if !s.r1.full && reqGo s i then reqSlow s i else s.r1.full
      req := if !s.r1.full && reqGo s i then r0Request s i else s.r1.req
      hitWay := reqHitWay s i
      hitIndex := reqIndex s
      prevHit := if reqGo s i then reqIsHit s i else s.r1.prevHit
      prevWay := if reqGo s i then reqHitWay s i else s.r1.prevWay
      prevHitWays :=
        if reqGo s i then reqHitWays s i
        else if s.r1.writeTag then fun w => w == replaceWay s else s.r1.prevHitWays
      prevHitReload := if reqGo s i then reqHitReload s i else s.r1.prevHitReload
      lsTlbHit := if i.mIn.tlbld || i.mIn.tlbie then false else s.r1.lsTlbHit
      writeBram := false
      writeTag := false
      slowValid := false
      storeWay := replaceWay s
      storeWays := if s.r1.writeTag then fun w => w == replaceWay s else s.r1.storeWays
      acksPending := acksNow s
      stalled := i.wishboneIn.stall && s.r1.wb.cyc
      decAcks := i.wishboneIn.ack && s.r1.wb.cyc
      chooseVictim := reqOp s i == .loadMiss || (s.r0.req.dcbz && !reqIsHit s i)
      victimWay := if s.r1.chooseVictim then plruVictim s else s.r1.victimWay
      lsValid := (reqOp s i == .loadHit || reqOp s i == .nop) && !s.r0.mmuReq
      mmuDone := reqOp s i == .loadHit && s.r0.mmuReq
      stcxFail := false
      cacheTags := fun ix w =>
        if s.r1.writeTag ∧ ix = s.r1.storeIndex ∧ w = replaceWay s then s.r1.reloadTag
        else s.r1.cacheTags ix w
      cacheValids := fun ix w =>
        if s.r1.writeTag ∧ ix = s.r1.storeIndex ∧ w = replaceWay s then true
        else if ix = getIndex s.rams.snoopPaddr ∧ snoopHits s w then false
        else s.r1.cacheValids ix w
      reservation :=
        if reqGo s i && accessOk s i && s.r0.req.load && s.r0.req.reserve &&
            s.r0.req.atomicFirst then
          ⟨reqIsHit s i && !reqSnoopHit s i, getLine (ra s)⟩
        else if killRsrv s then ⟨false, s.r1.reservation.addr⟩ else s.r1.reservation } := by
  have hway : (if s.r1.writeTag then replaceWay s else s.r1.storeWay) = replaceWay s := by
    cases h : s.r1.writeTag <;> simp [replaceWay, h]
  have htag : (if s.r1.writeTag then false else s.r1.writeTag) = false := by
    cases s.r1.writeTag <;> rfl
  have hvictim : ∀ b : Bool, (if b then true else false) = b := by decide
  simp only [slowCommon, slowAcks, slowVictim_eq, slowTake_eq, slowWriteTag_eq, slowSnoop,
    slowReservation_eq, slowPulses, hway, htag, hvictim]

/-! ## The states -/

theorem idleSetup_eq (req : MemAccessRequest g) : idleSetup req n =
    { n with
      wb := { n.wb with adr := addrToWb req.realAddr, sel := req.byteSel, dat := req.data }
      dcbz := req.dcbz && req.valid
      atomicMore := !req.lastDw
      storeIndex := getIndex req.realAddr
      storeRow := getRow req.realAddr
      endRowIx := getRowInLine req.realAddr - 1
      reloadTag := getTag req.realAddr
      req.hitReload := true
      lsTlbHit := req.tlbHit && !req.mmuReq
      tlbAccIndex := req.tlbIndex
      tlbAccWay := req.tlbWay
      rowsValid := fun _ => false
      storeWay := if req.isHit then req.hitWay else n.storeWay
      storeWays := if req.isHit then req.hitWays else n.storeWays } := by
  unfold idleSetup
  split_ifs <;> rfl

theorem idleLmiss_eq (req : MemAccessRequest g) : idleLmiss req n =
    { n with
      wb := if req.opLmiss then { n.wb with we := false, cyc := true, stb := true } else n.wb
      state :=
        if req.opLmiss then if req.nc then .ncLoadWaitAck else .reloadWaitAck else n.state
      reloading := if req.opLmiss && !req.nc then true else n.reloading
      writeTag := if req.opLmiss && !req.nc then true else n.writeTag
      full := if req.opLmiss && !req.nc && req.touch then false else n.full
      slowValid := if req.opLmiss && !req.nc && req.touch then true else n.slowValid
      lsValid := if req.opLmiss && !req.nc && req.touch then true else n.lsValid } := by
  unfold idleLmiss
  cases req.opLmiss <;> cases req.nc <;> cases req.touch <;> rfl

/-- The store-conditional in `req` fails in `IDLE`. -/
def idleStcxFail (s : State g) (req : MemAccessRequest g) : Bool :=
  req.opStore && req.reserve && (!s.r1.reservation.valid || killRsrv s)

/-- The store-conditional in `req` goes on to `DO_STCX`. -/
def idleStcx (s : State g) (req : MemAccessRequest g) : Bool :=
  req.opStore && req.reserve && !(!s.r1.reservation.valid || killRsrv s)

/-- `req` is a store that opens a `STORE_WAIT_ACK` cycle. -/
def MemAccessRequest.plainStore (req : MemAccessRequest g) : Bool :=
  req.opStore && !req.reserve && !req.dcbz

/-- `req` is a dcbz, which runs like a reload. -/
def MemAccessRequest.zeroLine (req : MemAccessRequest g) : Bool :=
  req.opStore && !req.reserve && req.dcbz

theorem idleStore_eq (req : MemAccessRequest g) : idleStore s req n =
    { n with
      wb :=
        { n.wb with
          we := if req.plainStore || req.zeroLine || idleStcx s req then true else n.wb.we
          cyc := if req.plainStore || req.zeroLine || idleStcx s req then true else n.wb.cyc
          stb := if req.plainStore || req.zeroLine then true else n.wb.stb }
      state :=
        if req.plainStore then .storeWaitAck
        else if req.zeroLine then .reloadWaitAck
        else if idleStcx s req then .doStcx
        else n.state
      reloading := if req.zeroLine then !req.nc else n.reloading
      writeTag := if req.zeroLine then !req.nc && !req.isHit else n.writeTag
      writeBram := if req.plainStore then req.isHit else n.writeBram
      stcxFail := if idleStcxFail s req then true else n.stcxFail
      full := if req.plainStore || idleStcxFail s req then false else n.full
      slowValid := if req.plainStore then true else n.slowValid
      lsValid := if (req.plainStore && !req.mmuReq) || idleStcxFail s req then true else n.lsValid
      mmuDone := if req.plainStore && req.mmuReq then true else n.mmuDone } := by
  unfold idleStore MemAccessRequest.plainStore MemAccessRequest.zeroLine idleStcx idleStcxFail
  generalize (!s.r1.reservation.valid || killRsrv s) = lost
  cases req.opStore <;> cases req.reserve <;> cases req.dcbz <;> cases req.mmuReq <;>
    cases lost <;> rfl

theorem idleFlushSync_eq (req : MemAccessRequest g) : idleFlushSync req n =
    { n with
      state := if req.opFlush then .flushCycle else n.state
      full := if req.opSync then false else n.full
      slowValid := if req.opSync then true else n.slowValid
      lsValid := if req.opSync then true else n.lsValid } := by
  unfold idleFlushSync
  split_ifs <;> rfl

theorem reloadSend_eq : reloadSend s i n =
    { n with
      wb :=
        { n.wb with
          stb := if !i.wishboneIn.stall && s.r1.wb.stb &&
            isLastRowWbAddr s.r1.wb.adr s.r1.endRowIx then false else n.wb.stb
          adr := if !i.wishboneIn.stall && s.r1.wb.stb then nextRowWbAddr g s.r1.wb.adr
            else n.wb.adr } } := by
  unfold reloadSend
  cases (!i.wishboneIn.stall && s.r1.wb.stb) <;>
    cases isLastRowWbAddr s.r1.wb.adr s.r1.endRowIx <;> rfl

theorem reloadComplete_eq : reloadComplete s i n =
    { n with
      full := if reloadMatch s i then false else n.full
      slowValid := if reloadMatch s i then true else n.slowValid
      lsValid := if reloadMatch s i && !s.fast.mmuReq then true else n.lsValid
      mmuDone := if reloadMatch s i && s.fast.mmuReq then true else n.mmuDone
      reservation.valid :=
        if reloadMatch s i && s.r1.req.reserve && s.r1.req.firstDw then true
        else n.reservation.valid } := by
  unfold reloadComplete
  cases reloadMatch s i <;> cases s.fast.mmuReq <;> cases s.r1.req.reserve <;>
    cases s.r1.req.firstDw <;> rfl

/-- The last row of the line is arriving. -/
def reloadLast (s : State g) (i : Input) : Bool :=
  i.wishboneIn.ack && isLastRow s.r1.storeRow s.r1.endRowIx

theorem slowReload_eq : slowReload s i n =
    { n with
      wb :=
        { n.wb with
          stb := if !i.wishboneIn.stall && s.r1.wb.stb &&
            isLastRowWbAddr s.r1.wb.adr s.r1.endRowIx then false else n.wb.stb
          adr := if !i.wishboneIn.stall && s.r1.wb.stb then nextRowWbAddr g s.r1.wb.adr
            else n.wb.adr
          cyc := if reloadLast s i then false else n.wb.cyc }
      rowsValid := fun r =>
        if i.wishboneIn.ack ∧ r = s.r1.storeRow.rowOfLine then true else n.rowsValid r
      full := if i.wishboneIn.ack && reloadMatch s i then false else n.full
      slowValid := if i.wishboneIn.ack && reloadMatch s i then true else n.slowValid
      lsValid := if i.wishboneIn.ack && reloadMatch s i && !s.fast.mmuReq then true
        else n.lsValid
      mmuDone := if i.wishboneIn.ack && reloadMatch s i && s.fast.mmuReq then true
        else n.mmuDone
      reservation.valid :=
        if i.wishboneIn.ack && reloadMatch s i && s.r1.req.reserve && s.r1.req.firstDw then true
        else n.reservation.valid
      reloading := if reloadLast s i then false else n.reloading
      prevHit := if reloadLast s i then s.r1.prevHitReload else n.prevHit
      prevWay := if reloadLast s i then s.r1.storeWay else n.prevWay
      prevHitWays := if reloadLast s i then s.r1.storeWays else n.prevHitWays
      state := if reloadLast s i then .idle else n.state
      storeRow := if i.wishboneIn.ack then nextRow s.r1.storeRow else n.storeRow } := by
  simp only [slowReload, reloadSend_eq, reloadComplete_eq, reloadLast]
  by_cases hack : i.wishboneIn.ack = true <;>
    by_cases hlast : isLastRow s.r1.storeRow s.r1.endRowIx = true <;> simp [hack, hlast]

theorem storeMerge_eq (req : MemAccessRequest g) : storeMerge s req n =
    { n with
      wb :=
        { n.wb with
          adr := if req.valid then
              setLowBits s.r1.wb.adr (req.realAddr.extractLsb' 3 (g.tlbLgPgsz - 3))
            else n.wb.adr
          dat := if req.valid then req.data else n.wb.dat
          sel := if req.valid then req.byteSel else n.wb.sel
          stb := mergeable s req && decide (acksNow s < 7#3) }
      storeWay := if mergeable s req && decide (acksNow s < 7#3) then req.hitWay else n.storeWay
      storeWays := if mergeable s req && decide (acksNow s < 7#3) then req.hitWays
        else n.storeWays
      storeRow := if mergeable s req && decide (acksNow s < 7#3) then getRow req.realAddr
        else n.storeRow
      writeBram := if mergeable s req && decide (acksNow s < 7#3) then req.isHit
        else n.writeBram
      atomicMore :=
        if mergeable s req && decide (acksNow s < 7#3) then !req.lastDw
        else if !mergeable s req && req.valid then false else n.atomicMore
      full := if mergeable s req && decide (acksNow s < 7#3) then false else n.full
      slowValid := if mergeable s req && decide (acksNow s < 7#3) then true else n.slowValid
      lsValid := if mergeable s req && decide (acksNow s < 7#3) then true else n.lsValid } := by
  unfold storeMerge
  cases req.valid <;> cases mergeable s req <;> by_cases h : acksNow s < 7#3 <;> simp [h]

/-- The store in `req` is added to the open wishbone cycle. -/
def mergeNow (s : State g) (i : Input) : Bool :=
  !i.wishboneIn.stall && mergeable s (curReq s i) && decide (acksNow s < 7#3)

/-- `STORE_WAIT_ACK` is left: no strobe is to come and every write is acked. -/
def storeExit (s : State g) (i : Input) : Bool :=
  stbsDone s i && !s.r1.atomicMore && (acksNow s == 0#3 || (i.wishboneIn.ack && acksNow s == 1#3))

theorem slowStoreWait_eq : slowStoreWait s i n =
    { n with
      wb :=
        { n.wb with
          adr := if !i.wishboneIn.stall && (curReq s i).valid then
              setLowBits s.r1.wb.adr ((curReq s i).realAddr.extractLsb' 3 (g.tlbLgPgsz - 3))
            else n.wb.adr
          dat := if !i.wishboneIn.stall && (curReq s i).valid then (curReq s i).data else n.wb.dat
          sel := if !i.wishboneIn.stall && (curReq s i).valid then (curReq s i).byteSel
            else n.wb.sel
          stb := if storeExit s i then false
            else if i.wishboneIn.stall then n.wb.stb else mergeNow s i
          cyc := if storeExit s i then false else n.wb.cyc }
      storeWay := if mergeNow s i then (curReq s i).hitWay else n.storeWay
      storeWays := if mergeNow s i then (curReq s i).hitWays else n.storeWays
      storeRow := if mergeNow s i then getRow (curReq s i).realAddr else n.storeRow
      writeBram := if mergeNow s i then (curReq s i).isHit else n.writeBram
      atomicMore :=
        if mergeNow s i then !(curReq s i).lastDw
        else if !i.wishboneIn.stall && !mergeable s (curReq s i) && (curReq s i).valid then false
        else n.atomicMore
      full := if mergeNow s i then false else n.full
      slowValid := if mergeNow s i then true else n.slowValid
      lsValid := if mergeNow s i then true else n.lsValid
      state := if storeExit s i then .idle else n.state } := by
  simp only [slowStoreWait, storeMerge_eq, mergeNow]
  rw [← storeExit]
  by_cases hexit : storeExit s i = true <;> by_cases hstall : i.wishboneIn.stall = true <;>
    simp [hexit, hstall]

theorem slowNcLoad_eq : slowNcLoad s i n =
    { n with
      wb :=
        { n.wb with
          stb := if i.wishboneIn.stall && !i.wishboneIn.ack then n.wb.stb else false
          cyc := if i.wishboneIn.ack then false else n.wb.cyc }
      state := if i.wishboneIn.ack then .idle else n.state
      full := if i.wishboneIn.ack then false else n.full
      slowValid := if i.wishboneIn.ack then true else n.slowValid
      lsValid := if i.wishboneIn.ack && !s.fast.mmuReq then true else n.lsValid
      mmuDone := if i.wishboneIn.ack && s.fast.mmuReq then true else n.mmuDone } := by
  unfold slowNcLoad
  cases i.wishboneIn.stall <;> cases i.wishboneIn.ack <;> cases s.fast.mmuReq <;> rfl

/-- The store-conditional in `r1` fails in `DO_STCX`. -/
def stcxLost (s : State g) : Bool :=
  !s.r1.reservation.valid || killRsrv s || getLine s.r1.req.realAddr != s.r1.reservation.addr

theorem slowDoStcx_eq : slowDoStcx s i n =
    { n with
      stcxFail := if stcxLost s then true else n.stcxFail
      full := if stcxLost s || !i.wishboneIn.stall then false else n.full
      lsValid := if stcxLost s || !i.wishboneIn.stall then true else n.lsValid
      wb :=
        { n.wb with
          cyc := if stcxLost s then false else n.wb.cyc
          stb := if !stcxLost s && !i.wishboneIn.stall then true else n.wb.stb }
      reservation.valid :=
        if stcxLost s || !i.wishboneIn.stall then false else n.reservation.valid
      writeBram := if !stcxLost s && !i.wishboneIn.stall then s.r1.req.isHit else n.writeBram
      slowValid := if !stcxLost s && !i.wishboneIn.stall then true else n.slowValid
      state :=
        if stcxLost s then .idle else if !i.wishboneIn.stall then .storeWaitAck else n.state } := by
  unfold slowDoStcx
  rw [← stcxLost]
  cases stcxLost s <;> cases i.wishboneIn.stall <;> rfl

/-! ## The request in `r0` -/

theorem step_r0_addr : (step s i).r0.req.addr =
    if r0Stall s i then s.r0.req.addr else earlyAddr i := by
  have hgo : (!s.r1.full && !i.dIn.hold) = !r0Stall s i := by simp [r0Stall]
  simp only [step, stage0, stage0In, earlyAddr, hgo]
  by_cases hstall : r0Stall s i = true <;> by_cases hm : i.mIn.valid = true <;>
    by_cases hd : s.r0.dValid = true <;> simp [hstall, hm, hd]

/-- The tags are read for the request that is in `r0` after the edge. -/
theorem cacheTagReadIndex_eq : cacheTagReadIndex s i = reqIndex (step s i) := by
  unfold cacheTagReadIndex reqIndex
  rw [step_r0_addr]
  split_ifs <;> rfl

/-- Only `tlb_update` writes the DTLB. -/
theorem step_dtlb : (step s i).tlb.dtlbValids = (tlbUpdate s i s.tlb).dtlbValids ∧
    (step s i).tlb.dtlbTags = (tlbUpdate s i s.tlb).dtlbTags ∧
    (step s i).tlb.dtlbPtes = (tlbUpdate s i s.tlb).dtlbPtes := by
  have hread : (tlbRead s i s.tlb).dtlbValids = s.tlb.dtlbValids ∧
      (tlbRead s i s.tlb).dtlbTags = s.tlb.dtlbTags ∧
      (tlbRead s i s.tlb).dtlbPtes = s.tlb.dtlbPtes := by
    unfold tlbRead
    split_ifs <;> exact ⟨rfl, rfl, rfl⟩
  have hplru : ∀ n, (tlbPlruUpdate s n).dtlbValids = n.dtlbValids ∧
      (tlbPlruUpdate s n).dtlbTags = n.dtlbTags ∧
      (tlbPlruUpdate s n).dtlbPtes = n.dtlbPtes := by
    intro n
    unfold tlbPlruUpdate
    split_ifs <;> exact ⟨rfl, rfl, rfl⟩
  simp only [step]
  obtain ⟨hv, ht, hp⟩ := hplru (tlbUpdate s i (tlbRead s i s.tlb))
  rw [hv, ht, hp]
  unfold tlbUpdate
  split_ifs <;> simp only [hread, and_self]

/-! ## Register by register

The registers that most invariants speak about, after an edge. -/

/-- `r1.full` before the state machine looks at it: a slow request from `r0` sets
it. -/
def takenFull (s : State g) (i : Input) : Bool :=
  if !s.r1.full && reqGo s i then reqSlow s i else s.r1.full

/-- `r1.req` before the state machine looks at it. -/
def takenReq (s : State g) (i : Input) : MemAccessRequest g :=
  if !s.r1.full && reqGo s i then r0Request s i else s.r1.req

/-- `IDLE` completes the request at once. -/
def idleDone (s : State g) (req : MemAccessRequest g) : Bool :=
  req.opSync || (req.opLmiss && !req.nc && req.touch) || req.plainStore || idleStcxFail s req

/-- The state machine completes a request. -/
def retires (s : State g) (i : Input) : Bool :=
  match s.r1.state with
  | .idle => idleDone s (curReq s i)
  | .reloadWaitAck => i.wishboneIn.ack && reloadMatch s i
  | .storeWaitAck => mergeNow s i
  | .ncLoadWaitAck => i.wishboneIn.ack
  | .doStcx => stcxLost s || !i.wishboneIn.stall
  | .flushCycle => true

/-- The state that `IDLE` goes to. -/
def idleNext (s : State g) (req : MemAccessRequest g) : StateT :=
  if req.opFlush then .flushCycle
  else if req.plainStore then .storeWaitAck
  else if req.zeroLine then .reloadWaitAck
  else if idleStcx s req then .doStcx
  else if req.opLmiss then if req.nc then .ncLoadWaitAck else .reloadWaitAck
  else .idle

theorem step_full : (step s i).r1.full = (takenFull s i && !retires s i) := by
  simp only [step, dcacheSlow, takenFull, retires]
  cases hst : s.r1.state <;>
    simp only [slowMachine, hst, slowIdle, idleFlushSync_eq, idleStore_eq, idleLmiss_eq,
      idleSetup_eq, slowReload_eq, slowStoreWait_eq, slowNcLoad_eq, slowDoStcx_eq, slowFlush,
      slowCommon_eq, idleDone]
  case idle =>
    cases (curReq s i).opSync <;> cases (curReq s i).plainStore <;>
      cases idleStcxFail s (curReq s i) <;>
      cases ((curReq s i).opLmiss && !(curReq s i).nc && (curReq s i).touch) <;> simp
  case reloadWaitAck => cases (i.wishboneIn.ack && reloadMatch s i) <;> simp
  case storeWaitAck => cases mergeNow s i <;> simp
  case ncLoadWaitAck => cases i.wishboneIn.ack <;> simp
  case doStcx => cases (stcxLost s || !i.wishboneIn.stall) <;> simp
  case flushCycle => simp

theorem step_req : (step s i).r1.req =
    if s.r1.state = .idle then { takenReq s i with hitReload := true } else takenReq s i := by
  simp only [step, dcacheSlow, takenReq]
  cases hst : s.r1.state <;>
    simp only [slowMachine, hst, slowIdle, idleFlushSync_eq, idleStore_eq, idleLmiss_eq,
      idleSetup_eq, slowReload_eq, slowStoreWait_eq, slowNcLoad_eq, slowDoStcx_eq, slowFlush,
      slowCommon_eq, if_true, reduceCtorEq, if_false]

theorem step_state : (step s i).r1.state =
    match s.r1.state with
    | .idle => idleNext s (curReq s i)
    | .reloadWaitAck => if reloadLast s i then .idle else .reloadWaitAck
    | .storeWaitAck => if storeExit s i then .idle else .storeWaitAck
    | .ncLoadWaitAck => if i.wishboneIn.ack then .idle else .ncLoadWaitAck
    | .doStcx =>
        if stcxLost s then .idle else if i.wishboneIn.stall then .doStcx else .storeWaitAck
    | .flushCycle => .idle := by
  simp only [step, dcacheSlow]
  cases hst : s.r1.state <;>
    simp only [slowMachine, hst, slowIdle, idleFlushSync_eq, idleStore_eq, idleLmiss_eq,
      idleSetup_eq, slowReload_eq, slowStoreWait_eq, slowNcLoad_eq, slowDoStcx_eq, slowFlush,
      slowCommon_eq, idleNext]
  case doStcx => cases i.wishboneIn.stall <;> simp

theorem step_reloading : (step s i).r1.reloading =
    match s.r1.state with
    | .idle =>
        if (curReq s i).zeroLine then !(curReq s i).nc
        else ((curReq s i).opLmiss && !(curReq s i).nc) || s.r1.reloading
    | .reloadWaitAck => !reloadLast s i && s.r1.reloading
    | _ => s.r1.reloading := by
  simp only [step, dcacheSlow]
  cases hst : s.r1.state <;>
    simp only [slowMachine, hst, slowIdle, idleFlushSync_eq, idleStore_eq, idleLmiss_eq,
      idleSetup_eq, slowReload_eq, slowStoreWait_eq, slowNcLoad_eq, slowDoStcx_eq, slowFlush,
      slowCommon_eq]
  case idle => cases ((curReq s i).opLmiss && !(curReq s i).nc) <;> simp
  case reloadWaitAck => cases reloadLast s i <;> simp

theorem step_writeTag : (step s i).r1.writeTag =
    (decide (s.r1.state = .idle) &&
      if (curReq s i).zeroLine then !(curReq s i).nc && !(curReq s i).isHit
      else (curReq s i).opLmiss && !(curReq s i).nc) := by
  simp only [step, dcacheSlow]
  cases hst : s.r1.state <;>
    simp only [slowMachine, hst, slowIdle, idleFlushSync_eq, idleStore_eq, idleLmiss_eq,
      idleSetup_eq, slowReload_eq, slowStoreWait_eq, slowNcLoad_eq, slowDoStcx_eq, slowFlush,
      slowCommon_eq, reduceCtorEq, decide_true, decide_false, Bool.true_and, Bool.false_and]
  cases ((curReq s i).opLmiss && !(curReq s i).nc) <;> simp

theorem step_storeIndex : (step s i).r1.storeIndex =
    if s.r1.state = .idle then getIndex (curReq s i).realAddr else s.r1.storeIndex := by
  simp only [step, dcacheSlow]
  cases hst : s.r1.state <;>
    simp only [slowMachine, hst, slowIdle, idleFlushSync_eq, idleStore_eq, idleLmiss_eq,
      idleSetup_eq, slowReload_eq, slowStoreWait_eq, slowNcLoad_eq, slowDoStcx_eq, slowFlush,
      slowCommon_eq, if_true, reduceCtorEq, if_false]

theorem step_reloadTag : (step s i).r1.reloadTag =
    if s.r1.state = .idle then getTag (curReq s i).realAddr else s.r1.reloadTag := by
  simp only [step, dcacheSlow]
  cases hst : s.r1.state <;>
    simp only [slowMachine, hst, slowIdle, idleFlushSync_eq, idleStore_eq, idleLmiss_eq,
      idleSetup_eq, slowReload_eq, slowStoreWait_eq, slowNcLoad_eq, slowDoStcx_eq, slowFlush,
      slowCommon_eq, if_true, reduceCtorEq, if_false]

theorem step_endRowIx : (step s i).r1.endRowIx =
    if s.r1.state = .idle then getRowInLine (curReq s i).realAddr - 1 else s.r1.endRowIx := by
  simp only [step, dcacheSlow]
  cases hst : s.r1.state <;>
    simp only [slowMachine, hst, slowIdle, idleFlushSync_eq, idleStore_eq, idleLmiss_eq,
      idleSetup_eq, slowReload_eq, slowStoreWait_eq, slowNcLoad_eq, slowDoStcx_eq, slowFlush,
      slowCommon_eq, if_true, reduceCtorEq, if_false]

theorem step_storeRow : (step s i).r1.storeRow =
    match s.r1.state with
    | .idle => getRow (curReq s i).realAddr
    | .reloadWaitAck => if i.wishboneIn.ack then nextRow s.r1.storeRow else s.r1.storeRow
    | .storeWaitAck => if mergeNow s i then getRow (curReq s i).realAddr else s.r1.storeRow
    | _ => s.r1.storeRow := by
  simp only [step, dcacheSlow]
  cases hst : s.r1.state <;>
    simp only [slowMachine, hst, slowIdle, idleFlushSync_eq, idleStore_eq, idleLmiss_eq,
      idleSetup_eq, slowReload_eq, slowStoreWait_eq, slowNcLoad_eq, slowDoStcx_eq, slowFlush,
      slowCommon_eq]

theorem step_rowsValid : (step s i).r1.rowsValid =
    match s.r1.state with
    | .idle => fun _ => false
    | .reloadWaitAck => fun row =>
        if i.wishboneIn.ack ∧ row = s.r1.storeRow.rowOfLine then true else s.r1.rowsValid row
    | _ => s.r1.rowsValid := by
  simp only [step, dcacheSlow]
  cases hst : s.r1.state <;>
    simp only [slowMachine, hst, slowIdle, idleFlushSync_eq, idleStore_eq, idleLmiss_eq,
      idleSetup_eq, slowReload_eq, slowStoreWait_eq, slowNcLoad_eq, slowDoStcx_eq, slowFlush,
      slowCommon_eq]

/-! The bus. -/

theorem step_adr : (step s i).r1.wb.adr =
    match s.r1.state with
    | .idle => addrToWb (curReq s i).realAddr
    | .reloadWaitAck =>
        if !i.wishboneIn.stall && s.r1.wb.stb then nextRowWbAddr g s.r1.wb.adr else s.r1.wb.adr
    | .storeWaitAck =>
        if !i.wishboneIn.stall && (curReq s i).valid then
          setLowBits s.r1.wb.adr ((curReq s i).realAddr.extractLsb' 3 (g.tlbLgPgsz - 3))
        else s.r1.wb.adr
    | _ => s.r1.wb.adr := by
  simp only [step, dcacheSlow]
  cases hst : s.r1.state <;>
    simp only [slowMachine, hst, slowIdle, idleFlushSync_eq, idleStore_eq, idleLmiss_eq,
      idleSetup_eq, slowReload_eq, slowStoreWait_eq, slowNcLoad_eq, slowDoStcx_eq, slowFlush,
      slowCommon_eq]
  case idle => cases (curReq s i).opLmiss <;> rfl

theorem step_sel : (step s i).r1.wb.sel =
    match s.r1.state with
    | .idle => (curReq s i).byteSel
    | .storeWaitAck =>
        if !i.wishboneIn.stall && (curReq s i).valid then (curReq s i).byteSel else s.r1.wb.sel
    | _ => s.r1.wb.sel := by
  simp only [step, dcacheSlow]
  cases hst : s.r1.state <;>
    simp only [slowMachine, hst, slowIdle, idleFlushSync_eq, idleStore_eq, idleLmiss_eq,
      idleSetup_eq, slowReload_eq, slowStoreWait_eq, slowNcLoad_eq, slowDoStcx_eq, slowFlush,
      slowCommon_eq]
  case idle => cases (curReq s i).opLmiss <;> rfl

theorem step_dat : (step s i).r1.wb.dat =
    match s.r1.state with
    | .idle => (curReq s i).data
    | .storeWaitAck =>
        if !i.wishboneIn.stall && (curReq s i).valid then (curReq s i).data else s.r1.wb.dat
    | _ => s.r1.wb.dat := by
  simp only [step, dcacheSlow]
  cases hst : s.r1.state <;>
    simp only [slowMachine, hst, slowIdle, idleFlushSync_eq, idleStore_eq, idleLmiss_eq,
      idleSetup_eq, slowReload_eq, slowStoreWait_eq, slowNcLoad_eq, slowDoStcx_eq, slowFlush,
      slowCommon_eq]
  case idle => cases (curReq s i).opLmiss <;> rfl

theorem step_cyc : (step s i).r1.wb.cyc =
    match s.r1.state with
    | .idle =>
        (curReq s i).plainStore || (curReq s i).zeroLine || idleStcx s (curReq s i) ||
          (curReq s i).opLmiss || s.r1.wb.cyc
    | .reloadWaitAck => !reloadLast s i && s.r1.wb.cyc
    | .storeWaitAck => !storeExit s i && s.r1.wb.cyc
    | .ncLoadWaitAck => !i.wishboneIn.ack && s.r1.wb.cyc
    | .doStcx => !stcxLost s && s.r1.wb.cyc
    | .flushCycle => s.r1.wb.cyc := by
  simp only [step, dcacheSlow]
  cases hst : s.r1.state <;>
    simp only [slowMachine, hst, slowIdle, idleFlushSync_eq, idleStore_eq, idleLmiss_eq,
      idleSetup_eq, slowReload_eq, slowStoreWait_eq, slowNcLoad_eq, slowDoStcx_eq, slowFlush,
      slowCommon_eq]
  case idle =>
    cases ((curReq s i).plainStore || (curReq s i).zeroLine || idleStcx s (curReq s i)) <;>
      cases (curReq s i).opLmiss <;> simp
  case reloadWaitAck => cases reloadLast s i <;> simp
  case storeWaitAck => cases storeExit s i <;> simp
  case ncLoadWaitAck => cases i.wishboneIn.ack <;> simp
  case doStcx => cases stcxLost s <;> simp

theorem step_stb : (step s i).r1.wb.stb =
    match s.r1.state with
    | .idle =>
        (curReq s i).plainStore || (curReq s i).zeroLine || (curReq s i).opLmiss || s.r1.wb.stb
    | .reloadWaitAck =>
        s.r1.wb.stb &&
          !(!i.wishboneIn.stall && isLastRowWbAddr s.r1.wb.adr s.r1.endRowIx)
    | .storeWaitAck =>
        !storeExit s i && if i.wishboneIn.stall then s.r1.wb.stb else mergeNow s i
    | .ncLoadWaitAck => i.wishboneIn.stall && !i.wishboneIn.ack && s.r1.wb.stb
    | .doStcx => (!stcxLost s && !i.wishboneIn.stall) || s.r1.wb.stb
    | .flushCycle => s.r1.wb.stb := by
  simp only [step, dcacheSlow]
  cases hst : s.r1.state <;>
    simp only [slowMachine, hst, slowIdle, idleFlushSync_eq, idleStore_eq, idleLmiss_eq,
      idleSetup_eq, slowReload_eq, slowStoreWait_eq, slowNcLoad_eq, slowDoStcx_eq, slowFlush,
      slowCommon_eq]
  case idle =>
    cases ((curReq s i).plainStore || (curReq s i).zeroLine) <;>
      cases (curReq s i).opLmiss <;> simp
  case reloadWaitAck =>
    cases i.wishboneIn.stall <;> cases s.r1.wb.stb <;>
      cases isLastRowWbAddr s.r1.wb.adr s.r1.endRowIx <;> rfl
  case storeWaitAck => cases storeExit s i <;> simp
  case ncLoadWaitAck => cases i.wishboneIn.stall <;> cases i.wishboneIn.ack <;> simp
  case doStcx => cases stcxLost s <;> cases i.wishboneIn.stall <;> simp

theorem step_we : (step s i).r1.wb.we =
    if s.r1.state = .idle then
      (curReq s i).plainStore || (curReq s i).zeroLine || idleStcx s (curReq s i) ||
        (!(curReq s i).opLmiss && s.r1.wb.we)
    else s.r1.wb.we := by
  simp only [step, dcacheSlow]
  cases hst : s.r1.state <;>
    simp only [slowMachine, hst, slowIdle, idleFlushSync_eq, idleStore_eq, idleLmiss_eq,
      idleSetup_eq, slowReload_eq, slowStoreWait_eq, slowNcLoad_eq, slowDoStcx_eq, slowFlush,
      slowCommon_eq, if_true, reduceCtorEq, if_false]
  cases ((curReq s i).plainStore || (curReq s i).zeroLine || idleStcx s (curReq s i)) <;>
    cases (curReq s i).opLmiss <;> simp

theorem step_acks : (step s i).r1.acksPending = acksNow s ∧
    (step s i).r1.stalled = (i.wishboneIn.stall && s.r1.wb.cyc) ∧
    (step s i).r1.decAcks = (i.wishboneIn.ack && s.r1.wb.cyc) := by
  simp only [step, dcacheSlow]
  cases hst : s.r1.state <;>
    simp only [slowMachine, hst, slowIdle, idleFlushSync_eq, idleStore_eq, idleLmiss_eq,
      idleSetup_eq, slowReload_eq, slowStoreWait_eq, slowNcLoad_eq, slowDoStcx_eq, slowFlush,
      slowCommon_eq, and_self]

theorem step_atomicMore : (step s i).r1.atomicMore =
    match s.r1.state with
    | .idle => !(curReq s i).lastDw
    | .storeWaitAck =>
        if mergeNow s i then !(curReq s i).lastDw
        else if !i.wishboneIn.stall && !mergeable s (curReq s i) && (curReq s i).valid then false
        else s.r1.atomicMore
    | _ => s.r1.atomicMore := by
  simp only [step, dcacheSlow]
  cases hst : s.r1.state <;>
    simp only [slowMachine, hst, slowIdle, idleFlushSync_eq, idleStore_eq, idleLmiss_eq,
      idleSetup_eq, slowReload_eq, slowStoreWait_eq, slowNcLoad_eq, slowDoStcx_eq, slowFlush,
      slowCommon_eq]

/-! What `IDLE` remembers of the DTLB entry that a request used. -/

theorem step_lsTlbHit : (step s i).r1.lsTlbHit =
    if s.r1.state = .idle then (curReq s i).tlbHit && !(curReq s i).mmuReq
    else !(i.mIn.tlbld || i.mIn.tlbie) && s.r1.lsTlbHit := by
  simp only [step, dcacheSlow]
  cases hst : s.r1.state <;>
    simp only [slowMachine, hst, slowIdle, idleFlushSync_eq, idleStore_eq, idleLmiss_eq,
      idleSetup_eq, slowReload_eq, slowStoreWait_eq, slowNcLoad_eq, slowDoStcx_eq, slowFlush,
      slowCommon_eq, if_true, reduceCtorEq, if_false]
  all_goals cases (i.mIn.tlbld || i.mIn.tlbie) <;> simp

theorem step_tlbAccIndex : (step s i).r1.tlbAccIndex =
    if s.r1.state = .idle then (curReq s i).tlbIndex else s.r1.tlbAccIndex := by
  simp only [step, dcacheSlow]
  cases hst : s.r1.state <;>
    simp only [slowMachine, hst, slowIdle, idleFlushSync_eq, idleStore_eq, idleLmiss_eq,
      idleSetup_eq, slowReload_eq, slowStoreWait_eq, slowNcLoad_eq, slowDoStcx_eq, slowFlush,
      slowCommon_eq, if_true, reduceCtorEq, if_false]

theorem step_tlbAccWay : (step s i).r1.tlbAccWay =
    if s.r1.state = .idle then (curReq s i).tlbWay else s.r1.tlbAccWay := by
  simp only [step, dcacheSlow]
  cases hst : s.r1.state <;>
    simp only [slowMachine, hst, slowIdle, idleFlushSync_eq, idleStore_eq, idleLmiss_eq,
      idleSetup_eq, slowReload_eq, slowStoreWait_eq, slowNcLoad_eq, slowDoStcx_eq, slowFlush,
      slowCommon_eq, if_true, reduceCtorEq, if_false]

/-! Completions. -/

/-- The state machine completes a request for loadstore1. -/
def retiresLs (s : State g) (i : Input) : Bool :=
  match s.r1.state with
  | .idle =>
      (curReq s i).opSync || ((curReq s i).opLmiss && !(curReq s i).nc && (curReq s i).touch) ||
        ((curReq s i).plainStore && !(curReq s i).mmuReq) || idleStcxFail s (curReq s i)
  | .reloadWaitAck => i.wishboneIn.ack && reloadMatch s i && !s.fast.mmuReq
  | .storeWaitAck => mergeNow s i
  | .ncLoadWaitAck => i.wishboneIn.ack && !s.fast.mmuReq
  | .doStcx => stcxLost s || !i.wishboneIn.stall
  | .flushCycle => true

/-- The state machine completes a request for the MMU. -/
def retiresMmu (s : State g) (i : Input) : Bool :=
  match s.r1.state with
  | .idle => (curReq s i).plainStore && (curReq s i).mmuReq
  | .reloadWaitAck => i.wishboneIn.ack && reloadMatch s i && s.fast.mmuReq
  | .ncLoadWaitAck => i.wishboneIn.ack && s.fast.mmuReq
  | _ => false

theorem step_lsValid : (step s i).r1.lsValid =
    (((reqOp s i == .loadHit || reqOp s i == .nop) && !s.r0.mmuReq) || retiresLs s i) := by
  unfold retiresLs
  simp only [step, dcacheSlow]
  cases hst : s.r1.state <;>
    simp only [slowMachine, hst, slowIdle, idleFlushSync_eq, idleStore_eq, idleLmiss_eq,
      idleSetup_eq, slowReload_eq, slowStoreWait_eq, slowNcLoad_eq, slowDoStcx_eq, slowFlush,
      slowCommon_eq]
  case idle =>
    cases (curReq s i).opSync <;> cases ((curReq s i).plainStore && !(curReq s i).mmuReq) <;>
      cases idleStcxFail s (curReq s i) <;>
      cases ((curReq s i).opLmiss && !(curReq s i).nc && (curReq s i).touch) <;> simp
  case reloadWaitAck => cases (i.wishboneIn.ack && reloadMatch s i && !s.fast.mmuReq) <;> simp
  case storeWaitAck => cases mergeNow s i <;> simp
  case ncLoadWaitAck => cases (i.wishboneIn.ack && !s.fast.mmuReq) <;> simp
  case doStcx => cases (stcxLost s || !i.wishboneIn.stall) <;> simp
  case flushCycle => simp

theorem step_mmuDone : (step s i).r1.mmuDone =
    ((reqOp s i == .loadHit && s.r0.mmuReq) || retiresMmu s i) := by
  unfold retiresMmu
  simp only [step, dcacheSlow]
  cases hst : s.r1.state <;>
    simp only [slowMachine, hst, slowIdle, idleFlushSync_eq, idleStore_eq, idleLmiss_eq,
      idleSetup_eq, slowReload_eq, slowStoreWait_eq, slowNcLoad_eq, slowDoStcx_eq, slowFlush,
      slowCommon_eq]
  case idle => cases ((curReq s i).plainStore && (curReq s i).mmuReq) <;> simp
  case reloadWaitAck => cases (i.wishboneIn.ack && reloadMatch s i && s.fast.mmuReq) <;> simp
  case ncLoadWaitAck => cases (i.wishboneIn.ack && s.fast.mmuReq) <;> simp
  all_goals simp

theorem step_stcxFail : (step s i).r1.stcxFail =
    match s.r1.state with
    | .idle => idleStcxFail s (curReq s i)
    | .doStcx => stcxLost s
    | _ => false := by
  simp only [step, dcacheSlow]
  cases hst : s.r1.state <;>
    simp only [slowMachine, hst, slowIdle, idleFlushSync_eq, idleStore_eq, idleLmiss_eq,
      idleSetup_eq, slowReload_eq, slowStoreWait_eq, slowNcLoad_eq, slowDoStcx_eq, slowFlush,
      slowCommon_eq]
  case idle => cases idleStcxFail s (curReq s i) <;> rfl
  case doStcx => cases stcxLost s <;> rfl

/-- The reservation before the state machine looks at it. -/
def takenRsrv (s : State g) (i : Input) : Reservation g :=
  if reqGo s i && accessOk s i && s.r0.req.load && s.r0.req.reserve && s.r0.req.atomicFirst then
    ⟨reqIsHit s i && !reqSnoopHit s i, getLine (ra s)⟩
  else if killRsrv s then ⟨false, s.r1.reservation.addr⟩ else s.r1.reservation

theorem step_reservation : (step s i).r1.reservation =
    { takenRsrv s i with
      valid :=
        match s.r1.state with
        | .reloadWaitAck =>
            (i.wishboneIn.ack && reloadMatch s i && s.r1.req.reserve && s.r1.req.firstDw) ||
              (takenRsrv s i).valid
        | .doStcx => !(stcxLost s || !i.wishboneIn.stall) && (takenRsrv s i).valid
        | _ => (takenRsrv s i).valid } := by
  unfold takenRsrv
  simp only [step, dcacheSlow]
  cases hst : s.r1.state <;>
    simp only [slowMachine, hst, slowIdle, idleFlushSync_eq, idleStore_eq, idleLmiss_eq,
      idleSetup_eq, slowReload_eq, slowStoreWait_eq, slowNcLoad_eq, slowDoStcx_eq, slowFlush,
      slowCommon_eq]
  case reloadWaitAck =>
    cases (i.wishboneIn.ack && reloadMatch s i && s.r1.req.reserve && s.r1.req.firstDw) <;> simp
  case doStcx => cases (stcxLost s || !i.wishboneIn.stall) <;> simp

/-! Tags and valid bits change where a tag is written, where a snooped write hits
and in `FLUSH_CYCLE`. -/

theorem step_cacheTags (ix : Index g) (w : Way g) :
    (step s i).r1.cacheTags ix w =
      if s.r1.writeTag = true ∧ ix = s.r1.storeIndex ∧ w = replaceWay s then s.r1.reloadTag
      else s.r1.cacheTags ix w := by
  simp only [step, dcacheSlow]
  cases hst : s.r1.state <;>
    simp only [slowMachine, hst, slowIdle, idleFlushSync_eq, idleStore_eq, idleLmiss_eq,
      idleSetup_eq, slowReload_eq, slowStoreWait_eq, slowNcLoad_eq, slowDoStcx_eq, slowFlush,
      slowCommon_eq]

variable {s i} in
theorem step_cacheValids {ix : Index g} {w : Way g}
    (h : (step s i).r1.cacheValids ix w = true) :
    (s.r1.writeTag = true ∧ ix = s.r1.storeIndex ∧ w = replaceWay s) ∨
      s.r1.cacheValids ix w = true := by
  by_cases hw : s.r1.writeTag = true ∧ ix = s.r1.storeIndex ∧ w = replaceWay s
  · exact Or.inl hw
  · right
    simp only [step, dcacheSlow] at h
    cases hst : s.r1.state <;>
      simp only [slowMachine, hst, slowIdle, idleFlushSync_eq, idleStore_eq, idleLmiss_eq,
        idleSetup_eq, slowReload_eq, slowStoreWait_eq, slowNcLoad_eq, slowDoStcx_eq, slowFlush,
        slowCommon_eq, if_neg hw] at h <;>
      split_ifs at h <;> exact h

end Microwatt.Dcache
