import Microwatt.Dcache.Types

/-!
# Request parsing and hit detection

The combinational processes of `dcache.vhdl` that look at the request in `r0`:
`tlb_search`, the snoop matching, `dcache_request`, the RAM write multiplexers
and the data path of the cache RAMs.  Each signal is a function of the registers
and of the inputs of the cycle.
-/

namespace Microwatt.Dcache

variable {g : Geometry}

/-! ## Stage 0 handshake -/

/-- `r0_stall`. -/
def r0Stall (s : State g) (i : Input) : Bool :=
  s.r1.full || i.dIn.hold

/-- `r0_valid`. -/
def r0Valid (s : State g) (i : Input) : Bool :=
  s.r0Full && !s.r1.full && !i.dIn.hold

/-- `stall_out`. -/
def stallOut (s : State g) : Bool :=
  s.r1.full

/-! ## `tlb_search` -/

/-- Way `j` of the DTLB row holds the translation of the request in `r0`:
`tlb_hit_expand`. -/
def tlbHitExpand (s : State g) (j : TlbWay g) : Bool :=
  s.tlb.tlbValidWay j && s.tlb.tlbTagWay j == getTlbTag s.r0.req.addr

/-- The way selected by a loop over all ways in which the last match wins. -/
def lastWay {n : Nat} [NeZero n] (hits : Fin n → Bool) : Fin n :=
  (List.finRange n).foldl (fun way i => if hits i then i else way) 0

/-- `tlb_hit_way`. -/
def tlbHitWay (s : State g) : TlbWay g :=
  lastWay (tlbHitExpand s)

/-- `pte`: the loop of `tlb_search` ORs the entries of all matching ways. -/
def pte (s : State g) : BitVec 64 :=
  (List.finRange (2 ^ g.tlbWayBits)).foldl
    (fun hitpte j => if tlbHitExpand s j then hitpte ||| s.tlb.tlbPteWay j else hitpte) 0

/-- `tlb_hit`. -/
def tlbHit (s : State g) (i : Input) : Bool :=
  (List.finRange (2 ^ g.tlbWayBits)).any (tlbHitExpand s) && s.tlb.tlbReadValid && r0Valid s i

/-- `valid_ra`. -/
def validRa (s : State g) (i : Input) : Bool :=
  tlbHit s i || !s.r0.req.virtMode

/-- `ra`. -/
def ra (s : State g) : RealAddr :=
  if s.r0.req.virtMode then dwordAligned (translate g (pte s) s.r0.req.addr)
  else dwordAligned (addrToReal s.r0.req.addr)

/-- `perm_attr`. -/
def permAttr (s : State g) : PermAttr :=
  if s.r0.req.virtMode then extractPermAttr (pte s) else realModePermAttr

/-- `req_same_page`: the access is to the real page of the bus address.  In
virtual mode this is concluded from the DTLB entry used by the request that
opened the cycle. -/
def reqSamePage (s : State g) : Bool :=
  if s.r0.req.virtMode then
    s.tlb.tlbReadValid && s.r1.state == .storeWaitAck && s.r1.lsTlbHit &&
      getTlbIndex s.r0.req.addr == s.r1.tlbAccIndex && tlbHitWay s == s.r1.tlbAccWay
  else
    getRpn g s.r0.req.addr == getRpn g (wbToAddr s.r1.wb.adr)

/-! ## Snooping -/

/-- `snoop_addr`. -/
def snoopAddr (i : Input) : RealAddr :=
  addrToReal (wbToAddr i.snoopIn.adr)

/-- `snoop_active`: our own cycles are not snooped. -/
def snoopActive (s : State g) (i : Input) : Bool :=
  i.snoopIn.cyc && i.snoopIn.stb && i.snoopIn.we && !(s.r1.wb.cyc && !i.wishboneIn.stall)

/-- The reservation granule of a real address: its bits above `LINE_OFF_BITS`. -/
def getLine (addr : RealAddr) : BitVec (56 - g.lineOffBits) :=
  addr.extractLsb' g.lineOffBits (56 - g.lineOffBits)

/-- `kill_rsrv`. -/
def killRsrv (s : State g) : Bool :=
  s.rams.snoopValid && s.r1.reservation.valid &&
    getLine s.rams.snoopPaddr == s.r1.reservation.addr

/-- `snoop_hits`. -/
def snoopHits (s : State g) (w : Way g) : Bool :=
  s.rams.snoopValid && s.rams.snoopTagSet w == getTag s.rams.snoopPaddr

/-! ## `dcache_request` -/

/-- `req_index`. -/
def reqIndex (s : State g) : Index g :=
  getIndex s.r0.req.addr

/-- `req_row`. -/
def reqRow (s : State g) : Row g :=
  getRow s.r0.req.addr

/-- `dawr_match` of the request in `r0`. -/
def dawrMatch (s : State g) (i : Input) : Bool :=
  if s.r0.dValid then s.r0.req.dawrMatch else i.dIn.dawrMatch

/-- `req_go`. -/
def reqGo (s : State g) (i : Input) : Bool :=
  r0Valid s i && !s.fast.lsError

/-- `wr_row_match`. -/
def wrRowMatch (s : State g) (i : Input) : Bool :=
  reqGo s i && reqRow s == s.r1.storeRow

/-- `idx_reload`: a load whose set has a line under reload, and whose row of that
line has not arrived. -/
def idxReload (s : State g) (i : Input) : WayExpand g :=
  if reqGo s i && s.r1.reloading && reqIndex s == s.r1.storeIndex &&
      (s.r0.req.load && !s.r0.req.touch && !s.r1.rowsValid (reqRow s).rowOfLine) then
    s.r1.storeWays
  else fun _ => false

/-- `use_forward_st`: the location being stored to in this cycle. -/
def useForwardSt (s : State g) (i : Input) : WayExpand g :=
  if wrRowMatch s i && s.r1.writeBram then s.r1.storeWays else fun _ => false

/-- `use_forward2`: the location stored to in the previous cycle. -/
def useForward2 (s : State g) (i : Input) (w : Way g) : Bool :=
  reqGo s i && s.fast.forwardValid && reqRow s == s.fast.forwardRow && w == s.fast.forwardWay

/-- The second half of an atomic quadword load. -/
def secondHalf (s : State g) : Bool :=
  s.r0.req.load && s.r0.req.atomicQw && !s.r0.req.atomicFirst

/-- The ways that hit by their tag.  In virtual mode each way is compared with
the real address from each matching way of the DTLB. -/
def tagHitWays (s : State g) (i : Input) (w : Way g) : Bool :=
  if s.r0.req.virtMode then
    (List.finRange (2 ^ g.tlbWayBits)).any fun j =>
      s.tlb.tlbValidWay j && s.r1.cacheValids (reqIndex s) w &&
        s.rams.cacheTagSet w == getTag (translate g (s.tlb.tlbPteWay j) s.r0.req.addr) &&
        tlbHitExpand s j
  else
    reqGo s i && s.r1.cacheValids (reqIndex s) w && s.rams.cacheTagSet w == getTag s.r0.req.addr

/-- `req_hit_ways`. -/
def reqHitWays (s : State g) (i : Input) (w : Way g) : Bool :=
  (secondHalf s && s.r1.prevHitWays w) || tagHitWays s i w

/-- The loop over the ways that gives `hit_way`, `is_hit` and `hit_reload`: the
last hitting way decides. -/
def hitLoop (s : State g) (i : Input) : Way g × Bool × Bool :=
  (List.finRange (2 ^ g.wayBits)).foldl
    (fun acc w =>
      if reqHitWays s i w then (w, reqGo s i && !idxReload s i w, reqGo s i && idxReload s i w)
      else acc)
    (0, false, false)

/-- `req_hit_way`. -/
def reqHitWay (s : State g) (i : Input) : Way g :=
  (hitLoop s i).1

/-- `req_is_hit`. -/
def reqIsHit (s : State g) (i : Input) : Bool :=
  (hitLoop s i).2.1

/-- `req_hit_reload`. -/
def reqHitReload (s : State g) (i : Input) : Bool :=
  (hitLoop s i).2.2

/-- `req_snoop_hit`: the snooped write of the previous cycle hits the line being
accessed. -/
def reqSnoopHit (s : State g) (i : Input) : Bool :=
  reqGo s i && getIndex s.rams.snoopPaddr == reqIndex s &&
    (List.finRange (2 ^ g.wayBits)).any fun w => snoopHits s w && reqHitWays s i w

/-- `plru_victim`. -/
def plruVictim (s : State g) : Way g :=
  Plru.getLru g.wayBits (s.rams.plruRam s.r1.hitIndex)

/-- `replace_way`: the way to replace on a miss. -/
def replaceWay (s : State g) : Way g :=
  if s.r1.writeTag then
    if s.r1.chooseVictim then plruVictim s else s.r1.victimWay
  else s.r1.storeWay

/-- `rc_ok`. -/
def rcOk (s : State g) : Bool :=
  (permAttr s).reference && (s.r0.req.load || (permAttr s).changed)

/-- `perm_ok`. -/
def permOk (s : State g) : Bool :=
  (s.r0.req.privMode || !(permAttr s).priv) &&
    ((permAttr s).wrPerm || (s.r0.req.load && (permAttr s).rdPerm))

/-- `access_ok`. -/
def accessOk (s : State g) (i : Input) : Bool :=
  validRa s i && permOk s && rcOk s && !dawrMatch s i

/-- `req_nc`. -/
def reqNc (s : State g) : Bool :=
  s.r0.req.nc || (permAttr s).nocache

/-- The operation chosen for the request in `r0`: at most one of the `req_op_*`
signals is set, and none for a TLB probe. -/
inductive ReqOp where
  | none
  | bad
  | loadHit
  | loadMiss
  | store
  | nop
  | flush
  | sync
deriving DecidableEq

/-- The decision of `dcache_request`. -/
def reqOp (s : State g) (i : Input) : ReqOp :=
  if reqGo s i then
    if s.r0.req.sync then .sync
    else if s.r0.req.touch then
      if accessOk s i && !reqIsHit s i && !reqNc s then .loadMiss
      else if accessOk s i && reqIsHit s i && !reqNc s then .loadHit
      else .nop
    else if s.r0.req.tlbProbe then .none
    else if !accessOk s i then .bad
    else if s.r0.req.flush then
      if reqIsHit s i then .flush else .nop
    else if reqNc s && (reqIsHit s i || s.r0.req.reserve) then .bad
    else if !s.r0.req.load then .store
    else if reqIsHit s i then .loadHit
    else .loadMiss
  else .none

/-- `early_req_row`. -/
def earlyReqRow (s : State g) (i : Input) : Row g :=
  if r0Stall s i then reqRow s
  else if i.mIn.valid then getRow i.mIn.addr
  else getRow i.dIn.addr

/-- `early_rd_valid`. -/
def earlyRdValid (s : State g) (i : Input) : Bool :=
  if r0Stall s i then s.r0.req.valid && s.r0.req.load else true

/-! ## The cache RAMs -/

/-- Ones in the bytes that `sel` selects. -/
def byteMask (sel : ByteSel) : Dword :=
  (List.range 8).foldl (fun m b => if sel.getLsbD b then m ||| (0xff#64 <<< (8 * b)) else m) 0

/-- The bytes of `new` that `sel` selects, the rest from `old`. -/
def mergeBytes (sel : ByteSel) (new old : Dword) : Dword :=
  (old &&& ~~~byteMask sel) ||| (new &&& byteMask sel)

/-- `ram_wr_data`. -/
def ramWrData (s : State g) (i : Input) : Dword :=
  if s.r1.writeBram || s.r1.dcbz then s.r1.req.data else i.wishboneIn.dat

/-- `ram_wr_select`. -/
def ramWrSelect (s : State g) : ByteSel :=
  if s.r1.writeBram then s.r1.req.byteSel else BitVec.allOnes 8

/-- `wr_sel_m` is not all zero: the RAM of way `replace_way` is written. -/
def ramWrite (s : State g) (i : Input) : Bool :=
  s.r1.writeBram || (s.r1.reloading && i.wishboneIn.ack)

/-- `cache_out`: the BRAM output of way `w` with the write data of this cycle or
the previous one forwarded. -/
def cacheOut (s : State g) (i : Input) (w : Way g) : Dword :=
  let dword := s.rams.rdData w
  let dword := if useForward2 s i w then mergeBytes s.fast.forwardSel s.fast.forwardData dword
    else dword
  if useForwardSt s i w then mergeBytes s.r1.req.byteSel s.r1.req.data dword else dword

end Microwatt.Dcache
