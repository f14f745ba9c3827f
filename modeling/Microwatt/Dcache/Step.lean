import Microwatt.Dcache.Slow

/-!
# One clock cycle of the dcache

The other clocked processes of `dcache.vhdl` and the transition function `step`
of the whole unit, with its output ports and its state after reset.
-/

namespace Microwatt.Dcache

variable {g : Geometry}

/-! ## The clocked processes -/

/-- The request that `stage_0` forms from the ports. -/
def stage0In (i : Input) : RegStage0 :=
  if i.mIn.valid then
    { req := { Loadstore1ToDcache.init with
        valid := true
        load := true
        privMode := true
        addr := i.mIn.addr
        byteSel := BitVec.allOnes 8 }
      mmuReq := true
      dValid := true }
  else
    { req := { i.dIn with data := 0 }, mmuReq := false, dValid := false }

/-- `stage_0`: latch the request; when stalled, sample the data the cycle after
the request came in. -/
def stage0 (s : State g) (i : Input) : RegStage0 :=
  if !s.r1.full && !i.dIn.hold then stage0In i
  else if !s.r0.dValid then
    { s.r0 with
      req := { s.r0.req with data := i.dIn.data, dawrMatch := i.dIn.dawrMatch }
      dValid := s.r0.req.valid }
  else s.r0

/-- `stage_0`, signal `r0_full`. -/
def stage0Full (s : State g) (i : Input) : Bool :=
  if !s.r1.full && !i.dIn.hold then (stage0In i).req.valid else s.r0Full

/-- The address looked up in the DTLB and the cache for the next request. -/
def earlyAddr (i : Input) : BitVec 64 :=
  if i.mIn.valid then i.mIn.addr else i.dIn.addr

/-- `tlb_read`. -/
def tlbRead (s : State g) (i : Input) (n : TlbRegs g) : TlbRegs g :=
  if r0Stall s i then n
  else
    { n with
      tlbValidWay := s.tlb.dtlbValids (getTlbIndex (earlyAddr i))
      tlbTagWay := s.tlb.dtlbTags (getTlbIndex (earlyAddr i))
      tlbPteWay := s.tlb.dtlbPtes (getTlbIndex (earlyAddr i))
      tlbReadValid := if i.mIn.valid then !(i.mIn.tlbie && i.mIn.doall) else i.dIn.valid }

/-- `tlb_update`. -/
def tlbUpdate (s : State g) (i : Input) (n : TlbRegs g) : TlbRegs g :=
  if i.mIn.tlbie && i.mIn.doall then { n with dtlbValids := fun _ _ => false }
  else if i.mIn.tlbie then
    { n with
      dtlbValids := fun ix w =>
        if ix = getTlbIndex i.mIn.addr ∧ s.fast.tlbHitWays w then false else n.dtlbValids ix w }
  else if i.mIn.tlbld then
    { n with
      dtlbTags := fun ix w =>
        if ix = getTlbIndex i.mIn.addr ∧ w = s.fast.tlbVictim then getTlbTag i.mIn.addr
        else n.dtlbTags ix w
      dtlbPtes := fun ix w =>
        if ix = getTlbIndex i.mIn.addr ∧ w = s.fast.tlbVictim then i.mIn.pte
        else n.dtlbPtes ix w
      dtlbValids := fun ix w =>
        if ix = getTlbIndex i.mIn.addr ∧ w = s.fast.tlbVictim then true
        else n.dtlbValids ix w }
  else n

/-- The synchronous write to the TLB PLRU array. -/
def tlbPlruUpdate (s : State g) (n : TlbRegs g) : TlbRegs g :=
  if s.fast.tlbHit then
    { n with
      tlbPlruRam := fun ix =>
        if ix = s.fast.tlbHitIndex then
          Plru.updateLru g.tlbWayBits s.fast.tlbHitWay (s.tlb.tlbPlruRam s.fast.tlbHitIndex)
        else n.tlbPlruRam ix }
  else n

/-- The index that `cache_tag_read` reads. -/
def cacheTagReadIndex (s : State g) (i : Input) : Index g :=
  if r0Stall s i then reqIndex s else getIndex (earlyAddr i)

/-- `cache_tag_read`, `cache_tag_read_2`, the PLRU array and the cache RAMs.  A
RAM that is read and written at the same edge gives the old contents. -/
def ramsNext (s : State g) (i : Input) : RamRegs g where
  cacheTagSet := s.r1.cacheTags (cacheTagReadIndex s i)
  snoopTagSet := s.r1.cacheTags (getIndex (snoopAddr i))
  snoopPaddr := snoopAddr i
  snoopValid := snoopActive s i
  plruRam := fun ix =>
    if (s.fast.cacheHit || s.r1.chooseVictim) ∧ ix = s.r1.hitIndex then
      Plru.updateLru g.wayBits s.r1.hitWay (s.rams.plruRam s.r1.hitIndex)
    else s.rams.plruRam ix
  ram := fun w row =>
    if ramWrite s i ∧ w = replaceWay s ∧ row = s.r1.storeRow then
      mergeBytes (ramWrSelect s) (ramWrData s i) (s.rams.ram w row)
    else s.rams.ram w row
  rdData := fun w =>
    if earlyRdValid s i then s.rams.ram w (earlyReqRow s i) else s.rams.rdData w

/-- `andor`. -/
def andor (mask : Bool) (in1 in2 : Dword) : Dword :=
  in2 ||| (in1 &&& if mask then BitVec.allOnes 64 else 0)

/-- The loop of `dcache_fast_hit` that ORs the data of all hitting ways. -/
def hitData (s : State g) (i : Input) : Dword :=
  (List.finRange (2 ^ g.wayBits)).foldl
    (fun dataOut w => andor (reqHitWays s i w) (cacheOut s i w) dataOut) 0

/-- `tlb_plru_victim`. -/
def tlbPlruVictim (s : State g) : TlbWay g :=
  Plru.getLru g.tlbWayBits (s.tlb.tlbPlruRam s.fast.tlbHitIndex)

/-- `dcache_fast_hit`. -/
def dcacheFastHit (s : State g) (i : Input) : FastRegs g where
  mmuReq := if r0Valid s i then s.r0.mmuReq else s.fast.mmuReq
  dataOut := if reqIsHit s i then hitData s i else i.wishboneIn.dat
  forwardData := ramWrData s i
  forwardSel := ramWrSelect s
  forwardValid := ramWrite s i
  forwardRow := s.r1.storeRow
  forwardWay := replaceWay s
  hitLoadValid := reqOp s i == .loadHit
  cacheHit := reqOp s i == .loadHit || (reqOp s i == .store && reqIsHit s i)
  cacheParadox := accessOk s i && reqNc s && reqIsHit s i
  reserveNc := accessOk s i && s.r0.req.reserve && reqNc s
  lsError := reqOp s i == .bad && !s.r0.mmuReq
  mmuError := reqOp s i == .bad && s.r0.mmuReq
  tlbHit := r0Valid s i && tlbHit s i
  tlbHitWay := if r0Valid s i then tlbHitWay s else s.fast.tlbHitWay
  tlbHitWays := if r0Valid s i then tlbHitExpand s else s.fast.tlbHitWays
  tlbHitIndex := if r0Valid s i then getTlbIndex s.r0.req.addr else s.fast.tlbHitIndex
  tlbVictim :=
    if s.fast.lsError then
      if s.fast.tlbHit then s.fast.tlbHitWay else tlbPlruVictim s
    else s.fast.tlbVictim

/-- A rising edge of `clk` outside reset. -/
def step (s : State g) (i : Input) : State g where
  r0 := stage0 s i
  r0Full := stage0Full s i
  r1 := dcacheSlow s i
  fast := dcacheFastHit s i
  tlb := tlbPlruUpdate s (tlbUpdate s i (tlbRead s i s.tlb))
  rams := ramsNext s i

/-! ## Ports and reset -/

/-- `wishbone_out`. -/
def wishboneOut (s : State g) : WishboneMasterOut :=
  s.r1.wb

/-- `d_out`. -/
def dOut (s : State g) : DcacheToLoadstore1 where
  valid := s.r1.lsValid
  data := s.fast.dataOut
  storeDone := !s.r1.stcxFail
  error := s.fast.lsError
  cacheParadox := s.fast.cacheParadox
  reserveNc := s.fast.reserveNc

/-- `m_out`. -/
def mOut (s : State g) : DcacheToMmu where
  stall := false
  done := s.r1.mmuDone
  err := s.fast.mmuError
  data := s.fast.dataOut

/-- What a reset leaves outside the DTLB, with no request taken.  The registers
that reset does not drive are arbitrary, except that none of the one-cycle
control signals that it leaves alone is pending. -/
structure Quiet (s : State g) : Prop where
  r0Full : s.r0Full = false
  cacheValids : s.r1.cacheValids = fun _ _ => false
  state : s.r1.state = .idle
  full : s.r1.full = false
  slowValid : s.r1.slowValid = false
  cyc : s.r1.wb.cyc = false
  stb : s.r1.wb.stb = false
  lsValid : s.r1.lsValid = false
  mmuDone : s.r1.mmuDone = false
  reloading : s.r1.reloading = false
  acksPending : s.r1.acksPending = 0
  stalled : s.r1.stalled = false
  decAcks : s.r1.decAcks = false
  prevHit : s.r1.prevHit = false
  prevHitReload : s.r1.prevHitReload = false
  prevHitWays : s.r1.prevHitWays = fun _ => false
  reservation : s.r1.reservation = ⟨false, 0⟩
  chooseVictim : s.r1.chooseVictim = false
  writeTag : s.r1.writeTag = false
  writeBram : s.r1.writeBram = false
  stcxFail : s.r1.stcxFail = false
  lsError : s.fast.lsError = false
  mmuError : s.fast.mmuError = false
  forwardValid : s.fast.forwardValid = false
  snoopValid : s.rams.snoopValid = false

/-- The state that a reset leaves: no valid DTLB entry either. -/
structure AfterReset (s : State g) : Prop extends Quiet s where
  dtlbValids : s.tlb.dtlbValids = fun _ _ => false

/-! ## Fixed inputs

A state after reset and the inputs from which runs on fixed requests are built. -/

/-- The state after reset in which every other register is zero. -/
def State.cold (g : Geometry) : State g where
  r0 := ⟨.init, false, false⟩
  r0Full := false
  r1 :=
    { full := false
      req := ⟨false, false, false, false, false, false, false, false, false, false, false, false,
        false, 0, 0, 0, false, 0, fun _ => false, false, false, false, false, 0, 0⟩
      atomicMore := false
      hitWay := 0
      hitIndex := 0
      prevHit := false
      prevWay := 0
      prevHitWays := fun _ => false
      prevHitReload := false
      lsTlbHit := false
      tlbAccIndex := 0
      tlbAccWay := 0
      state := .idle
      dcbz := false
      writeBram := false
      writeTag := false
      slowValid := false
      wb := ⟨0, 0, 0, false, false, false⟩
      reloading := false
      reloadTag := 0
      storeWay := 0
      storeWays := fun _ => false
      storeRow := ⟨0, 0⟩
      storeIndex := 0
      endRowIx := 0
      rowsValid := fun _ => false
      acksPending := 0
      stalled := false
      decAcks := false
      chooseVictim := false
      victimWay := 0
      lsValid := false
      mmuDone := false
      stcxFail := false
      cacheTags := fun _ _ => 0
      cacheValids := fun _ _ => false
      reservation := ⟨false, 0⟩ }
  fast := ⟨false, 0, 0, 0, false, ⟨0, 0⟩, 0, false, false, false, false, false, false, false, 0,
    fun _ => false, 0, 0⟩
  tlb := ⟨fun _ _ => false, fun _ _ => 0, fun _ _ => 0, fun _ => false, fun _ => 0, fun _ => 0,
    false, fun _ _ => false⟩
  rams := ⟨fun _ => 0, fun _ => 0, 0, false, fun _ _ => false, fun _ _ => 0, fun _ => 0⟩

theorem afterReset_cold (g : Geometry) : AfterReset (State.cold g) := by
  constructor
  · constructor <;> rfl
  · rfl

/-- A real-mode load of a doubleword. -/
def loadReq (addr : BitVec 64) : Loadstore1ToDcache :=
  { Loadstore1ToDcache.init with
    valid := true, load := true, privMode := true, addr := addr, byteSel := BitVec.allOnes 8 }

/-- A real-mode store of a doubleword. -/
def storeReq (addr : BitVec 64) : Loadstore1ToDcache :=
  { loadReq addr with load := false }

/-- A real-mode dcbt. -/
def touchReq (addr : BitVec 64) : Loadstore1ToDcache :=
  { loadReq addr with touch := true }

/-- A cycle with nothing on any port. -/
def Input.idle : Input where
  dIn := .init
  mIn := ⟨false, false, false, false, 0, 0⟩
  snoopIn := ⟨0, 0, 0, false, false, false⟩
  wishboneIn := ⟨0, false, false⟩

/-- A cycle with a request from loadstore1. -/
def Input.send (dIn : Loadstore1ToDcache) : Input :=
  { Input.idle with dIn }

/-- A cycle with an ack from the bus. -/
def Input.acked (dat : Dword) : Input :=
  { Input.idle with wishboneIn := ⟨dat, true, false⟩ }

/-- A load that misses, with the whole of its reload. -/
def reloadOf (addr : BitVec 64) (dat : Dword) : List Input :=
  [Input.send (loadReq addr), .idle, .idle] ++ List.replicate 8 (Input.acked dat) ++
    [Input.idle, .idle]

end Microwatt.Dcache
