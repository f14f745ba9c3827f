import Microwatt.Helpers
import Microwatt.Loadstore1.Request
import Microwatt.Mmu.Step
import Microwatt.Writeback

/-!
# The load/store pipeline

The registers of `loadstore1.vhdl` and its three processes.  Stage 1 holds the request that goes
to the dcache, stage 2 the request whose answer is awaited, and stage 3 talks to the MMU and raises
interrupts.  The hash unit runs beside stage 1.  The events for the performance monitor are left
out.
-/

namespace Microwatt.Loadstore1

open Execute1 (InstrTag XerCommon)

/-- `MmuToLoadstore1Type`. -/
structure MmuToLoadstore1 where
  done : Bool
  err : Bool
  invalid : Bool
  badtree : Bool
  segerr : Bool
  permError : Bool
  rcError : Bool
  sprval : BitVec 64
deriving DecidableEq

/-- `hash_reg_t`. -/
structure HashReg where
  active : Bool
  done : Bool
  step : BitVec 3
  z0 : BitVec 31
  key : Fin 4 → BitVec 16
  xleft : Fin 4 → BitVec 16
  xright : Fin 4 → BitVec 16

/-- `reg_stage1_t`. -/
structure RegStage1 where
  req : Request
  busy : Bool
  issued : Bool
  addr0 : BitVec 64
  dawrLl : Fin 2 → Bool
  dawrUl : Fin 2 → Bool
  dawrUd : Bool

/-- `reg_stage2_t`. -/
structure RegStage2 where
  req : Request
  byteIndex : Fin 8 → BitVec 3
  useSecond : Fin 8 → Bool
  busy : Bool
  waitDc : Bool
  waitMmu : Bool
  oneCycle : Bool
  wrSel : BitVec 2
  addr0 : BitVec 64
  dbgSpr : BitVec 64
  dbgSprAck : Bool

/-- `state_t`. -/
inductive StateT where
  | idle
  | mmuWait
deriving DecidableEq

/-- The data watchpoints: `dawr`, `dawrx` and `dawr_uplim` of stage 3. -/
structure Watchpoints where
  dawr : Fin 2 → BitVec 61
  dawrx : Fin 2 → BitVec 16
  dawrUplim : Fin 2 → BitVec 61

/-- `reg_stage3_t`, less the fields that nothing reads. -/
structure RegStage3 where
  state : StateT
  complete : Bool
  loadData : BitVec 64
  dar : BitVec 64
  dsisr : BitVec 32
  ldSpData : BitVec 32
  ldSpNz : Bool
  ldSpLz : BitVec 6
  stage1En : Bool
  interrupt : Bool
  intrVec : BitVec 12
  srr1 : BitVec 16
  wp : Watchpoints
  dawrUpd : Bool

/-- The registers of the unit. -/
structure State where
  r1 : RegStage1
  r2 : RegStage2
  r3 : RegStage3
  flushing : Bool
  stage1Dreq : Bool
  hash : HashReg

/-- The inputs of one cycle, outside reset. -/
structure Input where
  lIn : Execute1ToLoadstore1
  dIn : DcacheToLoadstore1
  mIn : MmuToLoadstore1
  dcStall : Bool
  dbgSprReq : Bool
  dbgSprAddr : BitVec 2

/-! ## The hash unit -/

/-- Rotate a half word right. -/
def ror16 (x : BitVec 16) (n : Nat) : BitVec 16 := x.rotateRight n

/-- One step of the key expansion, from the last four key words. -/
def nextKey (z : Bool) (k0 k1 k3 : BitVec 16) : BitVec 16 :=
  let t := ror16 k3 3 ^^^ k1
  0xfffc#16 ^^^ (BitVec.ofBool z).setWidth 16 ^^^ k0 ^^^ t ^^^ ror16 t 1

/-- The four words that `loadstore_hash_comb` adds to the key in one cycle. -/
def expandKeys (z0 : BitVec 31) (key : Fin 4 → BitVec 16) : Fin 4 → BitVec 16 :=
  let k4 := nextKey (z0.getLsbD 30) (key 0) (key 1) (key 3)
  let k5 := nextKey (z0.getLsbD 29) (key 1) (key 2) k4
  let k6 := nextKey (z0.getLsbD 28) (key 2) (key 3) k5
  let k7 := nextKey (z0.getLsbD 27) (key 3) k4 k6
  ![k4, k5, k6, k7]

/-- One round of the cipher on the halves `(xl, xr)` of a lane. -/
def cipherRound (key : BitVec 16) (x : BitVec 16 × BitVec 16) : BitVec 16 × BitVec 16 :=
  let fx := (x.1.rotateLeft 1 &&& x.1.rotateLeft 8) ^^^ x.1.rotateLeft 2
  (x.2 ^^^ fx ^^^ key, x.1)

/-- The four rounds of a lane in one cycle. -/
def cipherRounds (key : Fin 4 → BitVec 16) (lane : Fin 4) (x : BitVec 16 × BitVec 16) :
    BitVec 16 × BitVec 16 :=
  cipherRound (key (3 + lane)) <| cipherRound (key (2 + lane)) <|
    cipherRound (key (1 + lane)) <| cipherRound (key (0 + lane)) x

/-- A new computation: the bytes of RB and RA are interleaved. -/
def hashLoad (h : HashReg) (ra rb key : BitVec 64) : HashReg :=
  { h with
    done := false
    z0 := 0x7D12B0E6
    xright := fun lane =>
      rb.extractLsb' (16 * lane.val) 8 ++ ra.extractLsb' (16 * (3 - lane.val) + 8) 8
    xleft := fun lane =>
      rb.extractLsb' (16 * lane.val + 8) 8 ++ ra.extractLsb' (16 * (3 - lane.val)) 8
    key := fun i => key.extractLsb' (16 * (3 - i.val)) 16
    step := 0
    active := true }

/-- The process `loadstore_hash_comb`. -/
def hashRin (h : HashReg) (start : Bool) (ra rb key : BitVec 64) : HashReg :=
  if h.active then
    { h with
      key := expandKeys h.z0 h.key
      z0 := h.z0 <<< 4
      xleft := fun lane => (cipherRounds h.key lane (h.xleft lane, h.xright lane)).1
      xright := fun lane => (cipherRounds h.key lane (h.xleft lane, h.xright lane)).2
      step := h.step + 1
      active := h.step != 7
      done := h.step == 7 }
  else if start then
    hashLoad h ra rb key
  else
    { h with done := false }

/-- `hash_result`. -/
def hashResult (h : HashReg) : BitVec 64 :=
  (h.xright 0 ++ h.xleft 0 ++ h.xright 1 ++ h.xleft 1) ^^^
    (h.xright 2 ++ h.xleft 2 ++ h.xright 3 ++ h.xleft 3)

/-! ## Watchpoints -/

/-- `dawrx_match_enable`. -/
def dawrxMatchEnable (dawrx : BitVec 16) (virtMode privMode isStore : Bool) : Bool :=
  -- the PRIVM field; note privMode implies hypervisor mode
  !(!privMode && !dawrx.getLsbD 0 || privMode && !dawrx.getLsbD 2) &&
  -- the WT/WTI fields
  !(!dawrx.getLsbD 3 && (virtMode != dawrx.getLsbD 4)) &&
  -- the DW/DR fields
  !(!isStore && !dawrx.getLsbD 5 || isStore && !dawrx.getLsbD 6)

/-- The doubleword that is compared with watchpoint `k`: HRAMMC trims its top bit. -/
def dawrAddr (wp : Watchpoints) (k : Fin 2) (req : Request) : BitVec 61 :=
  if req.privMode && (wp.dawrx k).getLsbD 7 then (req.addr.extractLsb' 3 60).setWidth 61
  else req.addr.extractLsb' 3 61

/-- The subtraction for the lower limit borrows: `dawr_ll`. -/
def dawrLl (wp : Watchpoints) (req : Request) (k : Fin 2) : Bool :=
  (((dawrAddr wp k req).setWidth 62 - (wp.dawr k).setWidth 62) : BitVec 62).getLsbD 61

/-- The subtraction for the upper limit borrows: `dawr_ul`. -/
def dawrUl (wp : Watchpoints) (req : Request) (k : Fin 2) : Bool :=
  (((wp.dawrUplim k).setWidth 62 - (dawrAddr wp k req).setWidth 62) : BitVec 62).getLsbD 61

/-- `dawr_match`, from the request and the borrows in stage 1. -/
def dawrMatch (r1 : RegStage1) (wp : Watchpoints) (dawrUpd : Bool) : Bool :=
  (List.finRange 2).any (fun k =>
    !r1.dawrLl k && !r1.dawrUl k && !r1.dawrUd &&
      dawrxMatchEnable (wp.dawrx k) r1.req.virtMode r1.req.privMode r1.req.store) &&
    (r1.req.valid && r1.req.dcReq && !dawrUpd &&
      !(r1.req.touch || r1.req.sync || r1.req.flush || r1.req.tlbie))

/-- The upper limits, evaluated in the cycle after a change. -/
def Watchpoints.uplim (wp : Watchpoints) (k : Fin 2) : BitVec 61 :=
  wp.dawr k + ((wp.dawrx k).extractLsb' 10 6).setWidth 61

/-! ## Handshake -/

section

variable (hasFpu : Bool) (s : State) (i : Input)

/-- What holds up stages 1 and 2: `l2stall`. -/
def l2stall : Bool :=
  i.dcStall || i.dIn.error || s.r2.busy

/-- `busy`. -/
def busy : Bool :=
  i.dcStall || i.dIn.error || s.r1.busy || s.r2.busy

/-- `complete`. -/
def complete : Bool :=
  s.r2.oneCycle || (s.r2.waitDc && i.dIn.valid) || s.r3.complete

/-- An error that is an interrupt straight away. -/
def errorIntr : Bool :=
  i.dIn.error && (i.dIn.cacheParadox || i.dIn.reserveNc || s.r2.req.dawrIntr)

/-- `hashchk_trap`. -/
def hashchkTrap : Bool :=
  i.dIn.valid && s.r2.req.hashcmp && i.dIn.data != s.r2.req.storeData

/-- `exception`, which is also `flush`. -/
def exception : Bool :=
  hashchkTrap s i || (s.r2.req.valid && s.r2.req.alignIntr) || errorIntr s i || i.mIn.err

/-! ## Stage 1 -/

/-- The second request of a misaligned access. -/
def secondDword (req : Request) : Request :=
  let addr := (req.addr.extractLsb' 3 61 + 1) ++ 0#3
  { req with
    dwordIndex := true
    incomplete := false
    addr := if req.mode32bit then addr &&& ~~~(1#64 <<< 32) else addr
    byteSel := req.secondBytes }

/-- `stage1_req`: the request on its way to the dcache. -/
def stage1Req : Request :=
  if !s.r1.busy then
    { reqIn hasFpu i.lIn s.r1.addr0 with
      -- a request behind one with an alignment or watchpoint interrupt is a no-op
      dcReq := dcReqIn i.lIn s.r1.addr0 && !s.flushing }
  else if s.r1.req.dcReq && !s.r1.issued then
    s.r1.req
  else if s.r1.req.incomplete then
    secondDword s.r1.req
  else
    -- the conversion cycle of a single-precision load is one more request
    { s.r1.req with
      valid := s.r1.req.valid && s.r1.req.loadSp
      dcReq := false }

/-- `issue`, as first assigned. -/
def issue : Bool :=
  if !s.r1.busy then i.lIn.valid && (dcReqIn i.lIn s.r1.addr0 && !s.flushing)
  else (s.r1.req.dcReq && !s.r1.issued) || s.r1.req.incomplete

/-- Stage 1 has a hash instruction to issue. -/
def hashIssue : Bool :=
  issue s i && ((stage1Req hasFpu s i).hashst || (stage1Req hasFpu s i).hashcmp)

/-- What is in `r1` goes to `r2`. -/
def advance : Bool :=
  !exception s i && !l2stall s i

/-- `hash_start`. -/
def hashStart : Bool :=
  advance s i && hashIssue hasFpu s i && !s.r1.busy

/-- `stage1_dcreq`: a hash instruction waits for its hash. -/
def stage1Dcreq : Bool :=
  advance s i && issue s i && !(hashIssue hasFpu s i && !s.hash.done)

/-- The request that stage 1 latches. -/
def r1Req : Request :=
  let req := stage1Req hasFpu s i
  if hashIssue hasFpu s i then
    { req with
      addr := if s.r1.busy then s.r1.req.hashAddr else req.addr
      storeData := if s.hash.done then hashResult s.hash else req.storeData }
  else req

/-- `busy` of the request that stage 1 latches. -/
def r1Busy : Bool :=
  let req := stage1Req hasFpu s i
  if hashIssue hasFpu s i then !s.hash.done
  else issue s i && (req.incomplete || req.loadSp) || req.valid && req.mmuOp

/-- The process `loadstore1_1`. -/
def r1in : RegStage1 where
  req :=
    if exception s i then { s.r1.req with valid := false, dcReq := false, incomplete := false }
    else if l2stall s i then s.r1.req
    else r1Req hasFpu s i
  busy :=
    if exception s i then false
    else if l2stall s i then s.r1.busy || (s.r1.issued && i.dIn.error)
    else r1Busy hasFpu s i
  issued :=
    if exception s i then false
    else if l2stall s i then s.r1.issued && !i.dIn.error
    else stage1Dcreq hasFpu s i
  addr0 := if !s.r1.busy && i.lIn.valid then (stage1Req hasFpu s i).addr else s.r1.addr0
  dawrLl := dawrLl s.r3.wp (stage1Req hasFpu s i)
  dawrUl := dawrUl s.r3.wp (stage1Req hasFpu s i)
  dawrUd := s.r3.dawrUpd

/-! ## Stage 2 -/

/-- Byte `k` of a doubleword. -/
def byteOf (d : BitVec 64) (k : BitVec 3) : BitVec 8 :=
  d.extractLsb' (8 * k.toNat) 8

/-- A doubleword from its bytes, the lowest first. -/
def ofBytes (b : Fin 8 → BitVec 8) : BitVec 64 :=
  b 7 ++ b 6 ++ b 5 ++ b 4 ++ b 3 ++ b 2 ++ b 1 ++ b 0

/-- `store_data`: the data of a store, byte-reversed and rotated. -/
def storeData : BitVec 64 :=
  ofBytes fun k =>
    byteOf s.r1.req.storeData
      ((BitVec.ofNat 3 k.val - s.r1.addr0.extractLsb' 0 3) ^^^ s.r1.req.brevMask)

/-- `dbg_spr_rd`. -/
def dbgSprRd : Bool :=
  i.dbgSprReq && !(s.r1.req.valid && s.r1.req.readSpr)

/-- The value of the SPR that an `mfspr` in stage 1 or the debugger selects. -/
def sprval : BitVec 64 :=
  let sprsel := if dbgSprRd s i then i.dbgSprAddr.setWidth 4 else s.r1.req.sprsel
  if sprsel.getLsbD 3 then i.mIn.sprval
  else match (sprsel.extractLsb' 0 3).toNat with
    | 4 => s.r3.wp.dawr 0 ++ 0#3
    | 5 => s.r3.wp.dawr 1 ++ 0#3
    | 6 => (s.r3.wp.dawrx 0).setWidth 64
    | 7 => (s.r3.wp.dawrx 1).setWidth 64
    | 2 => s.r3.dsisr.setWidth 64
    | 3 => s.r3.dar
    | _ => 0

/-- Stage 2 may change. -/
def stage2Free : Bool :=
  !(l2stall s i || i.lIn.e2stall)

/-- The request in `r1` can go to `r2`: it has nothing left to issue. -/
def stage1Ready : Bool :=
  !s.r1.req.valid || s.r1.issued || !s.r1.req.dcReq

/-- The request of `r1` moves into `r2`. -/
def moveToStage2 (v : RegStage2) : RegStage2 :=
  let q := s.r1.req
  let waits := q.valid && (q.alignIntr || q.hashcmp)
  { v with
    req := { q with
      storeData := storeData s
      dawrIntr := dawrMatch s.r1 s.r3.wp s.r3.dawrUpd }
    addr0 := if q.readSpr then sprval s i else s.r1.addr0
    waitDc := q.valid && q.dcReq && !q.loadSp && !q.incomplete && !q.hashcmp && !q.tlbie
    waitMmu := q.valid && q.mmuOp
    busy := waits || (q.valid && q.mmuOp)
    oneCycle := !waits && q.valid && !(q.dcReq || q.mmuOp)
    wrSel := if q.doUpdate || q.store || q.readSpr then 0 else if q.loadSp then 1 else 2
    useSecond := fun k =>
      (((BitVec.ofNat 3 k.val ^^^ q.brevMask).setWidth 4 +
        (s.r1.addr0.extractLsb' 0 3).setWidth 4) : BitVec 4).getLsbD 3
    byteIndex := fun k =>
      (((BitVec.ofNat 3 k.val ^^^ q.brevMask).setWidth 4 +
        (s.r1.addr0.extractLsb' 0 3).setWidth 4) : BitVec 4).extractLsb' 0 3 }

/-- The request in `r1` stays there until it is issued. -/
def bubbleStage2 (v : RegStage2) : RegStage2 :=
  { v with
    req := { v.req with valid := false }
    waitDc := false
    waitMmu := false
    oneCycle := false }

/-- The register read by the debugger. -/
def dbgRead (v : RegStage2) : RegStage2 :=
  if !i.dbgSprReq then { v with dbgSprAck := false }
  else if dbgSprRd s i && !s.r2.dbgSprAck then
    { v with
      dbgSpr := sprval s i
      dbgSprAck := true }
  else v

/-- The MMU has done what the request in `r2` asked for. -/
def mmuDone (v : RegStage2) : RegStage2 :=
  if s.r2.waitMmu && i.mIn.done then
    { v with
      req := { v.req with valid := v.req.valid && !s.r2.req.mmuOp }
      busy := v.busy && !s.r2.req.mmuOp
      waitMmu := false }
  else v

/-- An alignment interrupt keeps stage 2 busy for one cycle, a `hashchk` until its data comes. -/
def endBusy (v : RegStage2) : RegStage2 :=
  if s.r2.busy && !s.r2.waitMmu && (!s.r2.req.hashcmp || i.dIn.valid) then
    { v with busy := false }
  else v

/-- `interrupt` of stage 2: `exception` without the trap of `hashchk`. -/
def stage2Interrupt : Bool :=
  (s.r2.req.valid && s.r2.req.alignIntr) || errorIntr s i || i.mIn.err

/-- What an interrupt or an error does to the request in `r2`. -/
def endStage2 (v : RegStage2) : RegStage2 :=
  if stage2Interrupt s i then
    { v with
      req := { v.req with valid := false }
      busy := false
      waitDc := false
      waitMmu := false }
  else if i.dIn.error then
    { v with
      waitMmu := true
      busy := true }
  else v

/-- The process `loadstore1_2`. -/
def r2in : RegStage2 :=
  let v := dbgRead s i s.r2
  let v :=
    if stage2Free s i then
      if stage1Ready s then moveToStage2 s i v else bubbleStage2 v
    else v
  endStage2 s i (endBusy s i (mmuDone s i v))

/-! ## Stage 3 -/

/-- `data_permuted`. -/
def dataPermuted : BitVec 64 :=
  ofBytes fun k => byteOf i.dIn.data (s.r2.byteIndex k)

/-- `negative`. -/
def negative : Bool :=
  let d := if s.r2.req.dwordIndex && s.r2.req.byteReverse then s.r3.loadData
    else dataPermuted s i
  (s.r2.req.length.getLsbD 3 && d.getLsbD 63) || (s.r2.req.length.getLsbD 2 && d.getLsbD 31) ||
    (s.r2.req.length.getLsbD 1 && d.getLsbD 15) || (s.r2.req.length.getLsbD 0 && d.getLsbD 7)

/-- `data_trimmed`. -/
def dataTrimmed : BitVec 64 :=
  ofBytes fun k =>
    if k.val < s.r2.req.length.toNat then
      if s.r2.req.dwordIndex && !s.r2.useSecond k then byteOf s.r3.loadData (BitVec.ofNat 3 k.val)
      else byteOf (dataPermuted s i) (BitVec.ofNat 3 k.val)
    else if negative s i && s.r2.req.signExtend then 0xff
    else 0

/-- `load_dp_data`: single to double precision for `lfs`. -/
def loadDpData : BitVec 64 :=
  let d := s.r3.ldSpData
  let frac := d.extractLsb' 0 23
  let exp := d.extractLsb' 23 8
  let denorm : Bool := exp == 0 && s.r3.ldSpNz
  let expDp : BitVec 11 :=
    if exp = 0xff then 2047
    else if exp ≠ 0 then 896 + exp.setWidth 11
    else if !s.r3.ldSpNz then 0
    else 896 - s.r3.ldSpLz.setWidth 11
  let fracShift : BitVec 5 := if denorm then s.r3.ldSpLz.extractLsb' 0 5 + 1 else 0
  d.extractLsb' 31 1 ++ expDp ++ (frac <<< shiftDistance fracShift) ++ 0#29

/-- The request in `r2` goes to the MMU of its own accord. -/
def mmuOpReq : Bool :=
  s.r3.state == .idle && s.r2.req.valid && s.r2.req.mmuOp

/-- `mmureq`. -/
def mmureq : Bool :=
  (mmuOpReq s && !s.r2.req.writeSpr) || (i.dIn.error && !errorIntr s i)

/-- `req`: send the request in `r2` to the dcache again. -/
def retry : Bool :=
  i.mIn.done && s.r2.req.dcReq

/-- The bits of `dsisr`, numbered from the left of 64. -/
def dsisrBit (k : Nat) (b : Bool) : BitVec 32 :=
  if b then 1#32 <<< (63 - k) else 0

/-- `dsisr` for an error of the dcache or of the MMU.  Bit 38 is set again from `load`. -/
def dsisrOf : BitVec 32 :=
  dsisrBit 41 (errorIntr s i && s.r2.req.dawrIntr) |||
  dsisrBit 37 (errorIntr s i && i.dIn.reserveNc) |||
  dsisrBit 35 (errorIntr s i && i.dIn.cacheParadox) |||
  dsisrBit 33 (i.mIn.err && i.mIn.invalid) |||
  dsisrBit 36 (i.mIn.err && i.mIn.permError) |||
  dsisrBit 44 (i.mIn.err && i.mIn.badtree) |||
  dsisrBit 45 (i.mIn.err && i.mIn.rcError) |||
  dsisrBit 38 (!s.r2.req.load)

/-- The bits of `srr1`, numbered from the left of 48. -/
def srr1Bit (k : Nat) (b : Bool) : BitVec 16 :=
  if b then 1#16 <<< (47 - k) else 0

/-- Write a watchpoint register. -/
def Watchpoints.write (wp : Watchpoints) (sprsel : BitVec 4) (d : BitVec 64) : Watchpoints :=
  match sprsel.toNat with
  | 4 => { wp with dawr := Function.update wp.dawr 0 (d.extractLsb' 3 61) }
  | 5 => { wp with dawr := Function.update wp.dawr 1 (d.extractLsb' 3 61) }
  | 6 => { wp with dawrx := Function.update wp.dawrx 0 (d.extractLsb' 0 16) }
  | 7 => { wp with dawrx := Function.update wp.dawrx 1 (d.extractLsb' 0 16) }
  | _ => wp

/-- The SPRs and limits after an `mtspr` in `r2`. -/
def sprWrites (v : RegStage3) : RegStage3 :=
  let v := { v with
    dawrUpd := false
    wp := if s.r3.dawrUpd then { v.wp with dawrUplim := v.wp.uplim } else v.wp }
  if s.r2.req.valid && s.r2.req.writeSpr then
    { v with
      dawrUpd := s.r2.req.sprsel.extractLsb' 2 2 == 1
      wp := v.wp.write s.r2.req.sprsel s.r2.req.storeData
      dsisr := if s.r2.req.sprsel = 2 then s.r2.req.storeData.extractLsb' 0 32 else v.dsisr
      dar := if s.r2.req.sprsel = 3 then s.r2.req.storeData else v.dar }
  else v

/-- What an interrupt records. -/
def raise (v : RegStage3) : RegStage3 :=
  if s.r2.req.alignIntr then
    { v with
      intrVec := 0x600
      srr1 := srr1Bit 34 s.r2.req.prefixed
      dar := s.r2.req.addr }
  else if hashchkTrap s i then
    { v with
      intrVec := 0x700
      srr1 := srr1Bit 34 s.r2.req.prefixed ||| srr1Bit 46 true }
  else if !s.r2.req.instrFault then
    { v with
      srr1 := srr1Bit 34 s.r2.req.prefixed
      dar := s.r2.req.addr
      intrVec := if i.mIn.segerr then 0x380 else 0x300
      dsisr := if i.mIn.segerr then v.dsisr else dsisrOf s i }
  else if !i.mIn.segerr then
    { v with
      srr1 := srr1Bit 33 i.mIn.invalid ||| srr1Bit 35 i.mIn.permError |||
        srr1Bit 44 i.mIn.badtree ||| srr1Bit 45 i.mIn.rcError
      intrVec := 0x400 }
  else
    { v with intrVec := 0x480 }

/-- The process `loadstore1_3`. -/
def r3in : RegStage3 :=
  let v := sprWrites s { s.r3 with
    srr1 := 0
    ldSpData := (dataTrimmed s i).extractLsb' 0 32
    ldSpNz := (dataTrimmed s i).extractLsb' 0 23 != 0
    ldSpLz := Helpers.countLeftZeroes ((dataTrimmed s i).extractLsb' 0 23)
    loadData := if i.dIn.valid && s.r2.req.load then dataPermuted s i else s.r3.loadData
    complete := (i.dIn.valid && s.r2.req.hashcmp && !hashchkTrap s i) ||
      (i.mIn.done && !s.r2.req.dcReq)
    state :=
      if i.mIn.done || i.mIn.err then .idle
      else if mmuOpReq s || (i.dIn.error && !errorIntr s i) then .mmuWait
      else s.r3.state
    stage1En :=
      if i.mIn.done || i.mIn.err then true
      else if i.dIn.error && !errorIntr s i then false
      else s.r3.stage1En
    interrupt := exception s i }
  if exception s i then raise s i v else v

/-! ## Outputs -/

/-- `d_out`. -/
def dOut : Loadstore1ToDcache :=
  let q := if s.r3.stage1En then stage1Req hasFpu s i else s.r2.req
  { valid := if s.r3.stage1En then stage1Dcreq hasFpu s i else retry s i
    hold := i.lIn.e2stall
    load := q.load
    dcbz := q.dcbz
    flush := q.flush
    touch := q.touch
    sync := q.sync
    nc := q.nc
    reserve := q.reserve
    atomicQw := q.atomicQw
    atomicFirst := q.atomicFirst
    atomicLast := q.atomicLast
    virtMode := q.virtMode
    privMode := q.privMode
    tlbProbe := q.tlbie
    addr := q.addr
    data := if s.stage1Dreq then storeData s else s.r2.req.storeData
    byteSel := q.byteSel
    dawrMatch := if s.stage1Dreq then dawrMatch s.r1 s.r3.wp s.r3.dawrUpd else s.r2.req.dawrIntr }

/-- `m_out`. -/
def mOut : Mmu.Loadstore1ToMmu where
  valid := mmureq s i
  tlbie := s.r2.req.tlbie
  slbia := s.r2.req.isSlbia
  mtspr := mmuOpReq s && s.r2.req.writeSpr
  iside := s.r2.req.instrFault
  load := s.r2.req.load
  priv := s.r2.req.privMode
  ric := s.r2.req.ric
  sprnt := s.r2.req.sprsel.getLsbD 0
  addr := s.r2.req.addr
  rs := s.r2.req.storeData

/-- `write_enable or do_update`: a register is written. -/
def writeEnable : Bool :=
  if i.dIn.valid && !s.r2.req.incomplete then
    (s.r2.req.load && !s.r2.req.loadSp && !s.r2.req.flush && !s.r2.req.touch &&
      !s.r2.req.hashcmp) || (s.r2.req.update && s.r2.req.store)
  else
    s.r2.req.valid && (s.r2.req.readSpr || s.r2.req.doUpdate ||
      (s.r2.req.loadSp && !s.r2.req.dcReq))

/-- `l_out`. -/
def lOut : Writeback.Loadstore1ToWriteback where
  valid := complete s i
  instrTag := s.r2.req.instrTag
  writeEnable := writeEnable s i
  writeReg := s.r2.req.writeReg
  writeData :=
    if s.r2.wrSel = 0 then s.r2.addr0
    else if s.r2.wrSel = 1 then loadDpData s
    else dataTrimmed s i
  xerc := s.r2.req.xerc
  rc := s.r2.req.rc && complete s i
  storeDone := i.dIn.storeDone
  interrupt := s.r3.interrupt
  intrVec := s.r3.intrVec
  srr1 := s.r3.srr1

/-- One clock edge outside reset. -/
def step : State where
  r1 := r1in hasFpu s i
  r2 := r2in s i
  r3 := r3in s i
  flushing :=
    (s.flushing || ((r1in hasFpu s i).req.valid &&
      ((r1in hasFpu s i).req.alignIntr || (r1in hasFpu s i).req.dawrIntr))) && !exception s i
  stage1Dreq := stage1Dcreq hasFpu s i
  hash := hashRin s.hash (hashStart hasFpu s i) i.lIn.addr1 i.lIn.addr2 i.lIn.hashkey

end

/-! ## Reset -/

/-- `Execute1ToLoadstore1Init`. -/
def Execute1ToLoadstore1.init : Execute1ToLoadstore1 where
  valid := false
  op := .illegal
  insn := 0
  instrTag := ⟨0, false⟩
  addr1 := 0
  addr2 := 0
  data := 0
  writeReg := 0
  length := 0
  ci := false
  byteReverse := false
  signExtend := false
  update := false
  hash := false
  xerc := ⟨false, false, false, false, false⟩
  reserve := false
  rc := false
  virtMode := false
  privMode := false
  mode32bit := false
  is32bit := false
  prefixed := false
  rpt := false
  second := false
  e2stall := false
  hashkey := 0
  hashEnable := false

/-- `request_init`. -/
def Request.init : Request :=
  { reqIn false Execute1ToLoadstore1.init 0 with
    atomicFirst := false
    atomicLast := false
    sprsel := 0 }

/-- No request, no answer. -/
def Input.idle : Input where
  lIn := Execute1ToLoadstore1.init
  dIn := ⟨false, 0, false, false, false, false⟩
  mIn := ⟨false, false, false, false, false, false, false, 0⟩
  dcStall := false
  dbgSprReq := false
  dbgSprAddr := 0

/-- The registers after reset, from those before it.  `stage1_dreq` is not reset. -/
def State.reset (s : State) : State where
  r1 := { s.r1 with
    req := { s.r1.req with
      valid := false, dcReq := false, incomplete := false, tlbie := false, isSlbia := false
      instrFault := false, load := false, privMode := false, sprsel := 0, ric := 0
      xerc := ⟨false, false, false, false, false⟩ }
    busy := false
    issued := false
    dawrLl := fun _ => false
    dawrUl := fun _ => false
    dawrUd := false }
  r2 := { s.r2 with
    req := { s.r2.req with
      valid := false, tlbie := false, isSlbia := false, instrFault := false, load := false
      privMode := false, sprsel := 0, ric := 0, xerc := ⟨false, false, false, false, false⟩ }
    busy := false
    waitDc := false
    waitMmu := false
    oneCycle := false }
  r3 := { s.r3 with
    dar := 0
    dsisr := 0
    state := .idle
    interrupt := false
    complete := false
    stage1En := true
    wp := ⟨fun _ => 0, fun _ => 0, fun _ => 0⟩
    dawrUpd := false }
  flushing := false
  stage1Dreq := s.stage1Dreq
  hash := ⟨false, false, 0, 0, fun _ => 0, fun _ => 0, fun _ => 0⟩

/-- All registers zero, but `stage1_en`. -/
def State.cold : State where
  r1 := ⟨Request.init, false, false, 0, fun _ => false, fun _ => false, false⟩
  r2 := ⟨Request.init, fun _ => 0, fun _ => false, false, false, false, false, 0, 0, 0, false⟩
  r3 := ⟨.idle, false, 0, 0, 0, 0, false, 0, true, false, 0, 0,
    ⟨fun _ => 0, fun _ => 0, fun _ => 0⟩, false⟩
  flushing := false
  stage1Dreq := false
  hash := ⟨false, false, 0, 0, fun _ => 0, fun _ => 0, fun _ => 0⟩

theorem State.reset_cold : State.cold.reset = State.cold := rfl

end Microwatt.Loadstore1
