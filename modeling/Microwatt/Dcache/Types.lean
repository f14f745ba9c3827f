import Microwatt.Wishbone
import Microwatt.Plru

/-!
# Geometry and registers of the dcache

The generics, constants, address helper functions and register records of
`dcache.vhdl`.  The tag, valid, PLRU and data RAMs are functions of the set (and
way); the valid bits and one-hot way vectors are `Bool`-valued functions of the
way.
-/

namespace Microwatt.Dcache

/-- The generics of the dcache, as powers of two, with the assertions the
architecture makes about them.  `ROW_SIZE = 8`, so `ROW_OFF_BITS = 3`; a line has
`2 ^ rowLinebits` rows, a set `2 ^ wayBits` ways and there are
`2 ^ indexBits` sets. -/
structure Geometry where
  rowLinebits : Nat
  indexBits : Nat
  wayBits : Nat
  tlbSetBits : Nat
  tlbWayBits : Nat
  tlbLgPgsz : Nat
  /-- `ROW_PER_LINE > 1`. -/
  rowLinebits_pos : 0 < rowLinebits
  /-- `SET_SIZE_BITS <= TLB_LG_PGSZ`. -/
  setSize_le : 3 + rowLinebits + indexBits ≤ tlbLgPgsz
  /-- The page offset is a slice of the bus address. -/
  tlbLgPgsz_le : tlbLgPgsz ≤ 32
  /-- `TLB_EA_TAG_BITS` is a natural number. -/
  tlbTag_le : tlbLgPgsz + tlbSetBits ≤ 64

namespace Geometry

variable (g : Geometry)

instance neZeroWays : NeZero (2 ^ g.wayBits) := ⟨by positivity⟩

instance neZeroTlbWays : NeZero (2 ^ g.tlbWayBits) := ⟨by positivity⟩

/-- `LINE_OFF_BITS`. -/
abbrev lineOffBits : Nat := 3 + g.rowLinebits

/-- `SET_SIZE_BITS`. -/
abbrev setSizeBits : Nat := g.lineOffBits + g.indexBits

/-- `TAG_BITS`. -/
abbrev tagBits : Nat := 56 - g.setSizeBits

/-- `TLB_EA_TAG_BITS`. -/
abbrev tlbEaTagBits : Nat := 64 - (g.tlbLgPgsz + g.tlbSetBits)

/-- The default generics: 32 lines of 64 bytes, four ways, a DTLB of 64 sets of
two ways, 4 kB pages. -/
def default : Geometry where
  rowLinebits := 3
  indexBits := 5
  wayBits := 2
  tlbSetBits := 6
  tlbWayBits := 1
  tlbLgPgsz := 12
  rowLinebits_pos := by decide
  setSize_le := by decide
  tlbLgPgsz_le := by decide
  tlbTag_le := by decide

end Geometry

variable (g : Geometry)

/-- `index_t`. -/
abbrev Index := BitVec g.indexBits

/-- `row_in_line_t`. -/
abbrev RowInLine := BitVec g.rowLinebits

/-- `row_t`: the set index above the row of the line. -/
structure Row where
  index : Index g
  rowOfLine : RowInLine g
deriving DecidableEq

/-- `way_t`. -/
abbrev Way := Fin (2 ^ g.wayBits)

/-- `cache_tag_t`. -/
abbrev CacheTag := BitVec g.tagBits

/-- `tlb_index_t`. -/
abbrev TlbIndex := BitVec g.tlbSetBits

/-- `tlb_way_t`. -/
abbrev TlbWay := Fin (2 ^ g.tlbWayBits)

/-- `tlb_tag_t`. -/
abbrev TlbTag := BitVec g.tlbEaTagBits

/-- `way_expand_t`, `cache_way_valids_t`. -/
abbrev WayExpand := Way g → Bool

variable {g}

/-! ## Address helper functions

They are applied to real addresses and to 64-bit effective addresses alike. -/

/-- `get_index`. -/
def getIndex {n : Nat} (addr : BitVec n) : Index g :=
  addr.extractLsb' g.lineOffBits g.indexBits

/-- The row of the line that `addr` lies in. -/
def getRowInLine {n : Nat} (addr : BitVec n) : RowInLine g :=
  addr.extractLsb' 3 g.rowLinebits

/-- `get_row`. -/
def getRow {n : Nat} (addr : BitVec n) : Row g where
  index := getIndex addr
  rowOfLine := getRowInLine addr

/-- `get_row_of_line`. -/
def getRowOfLine (row : Row g) : RowInLine g :=
  row.rowOfLine

/-- `is_last_row_wb_addr`. -/
def isLastRowWbAddr (addr : WbAddr) (last : RowInLine g) : Bool :=
  addr.extractLsb' 0 g.rowLinebits == last

/-- `is_last_row`. -/
def isLastRow (row : Row g) (last : RowInLine g) : Bool :=
  getRowOfLine row == last

/-- Replace the low `k` bits of a bus address. -/
def setLowBits (addr : WbAddr) {k : Nat} (low : BitVec k) : WbAddr :=
  (addr >>> k) <<< k ||| low.setWidth 29

variable (g) in
/-- `next_row_wb_addr`: only the bits that number the rows of a line count up. -/
def nextRowWbAddr (addr : WbAddr) : WbAddr :=
  setLowBits addr (addr.extractLsb' 0 g.rowLinebits + 1)

/-- `next_row`. -/
def nextRow (row : Row g) : Row g :=
  { row with rowOfLine := row.rowOfLine + 1 }

/-- `get_tag`. -/
def getTag {n : Nat} (addr : BitVec n) : CacheTag g :=
  addr.extractLsb' g.setSizeBits g.tagBits

/-- The DTLB set of an effective address. -/
def getTlbIndex (addr : BitVec 64) : TlbIndex g :=
  addr.extractLsb' g.tlbLgPgsz g.tlbSetBits

/-- The DTLB tag of an effective address. -/
def getTlbTag (addr : BitVec 64) : TlbTag g :=
  addr.extractLsb' (g.tlbLgPgsz + g.tlbSetBits) g.tlbEaTagBits

variable (g) in
/-- The real page number of `addr`, bits 55 down to `TLB_LG_PGSZ`. -/
def getRpn {n : Nat} (addr : BitVec n) : BitVec (56 - g.tlbLgPgsz) :=
  addr.extractLsb' g.tlbLgPgsz (56 - g.tlbLgPgsz)

variable (g) in
/-- A real address made of the page number in `pte` and the page offset of the
effective address. -/
def translate (pte addr : BitVec 64) : RealAddr :=
  ((pte.extractLsb' 0 56 >>> g.tlbLgPgsz) <<< g.tlbLgPgsz) |||
    (addr.extractLsb' 0 g.tlbLgPgsz).setWidth 56

/-- The address of the doubleword `addr` lies in: `ROW_OFF_BITS` low zeros. -/
def dwordAligned (addr : RealAddr) : RealAddr :=
  (addr >>> 3) <<< 3

/-- `perm_attr_t`. -/
structure PermAttr where
  reference : Bool
  changed : Bool
  nocache : Bool
  priv : Bool
  rdPerm : Bool
  wrPerm : Bool

/-- `extract_perm_attr`. -/
def extractPermAttr (pte : BitVec 64) : PermAttr where
  reference := pte.getLsbD 8
  changed := pte.getLsbD 7
  nocache := pte.getLsbD 5
  priv := pte.getLsbD 3
  rdPerm := pte.getLsbD 2
  wrPerm := pte.getLsbD 1

/-- `real_mode_perm_attr`. -/
def realModePermAttr : PermAttr where
  reference := true
  changed := true
  nocache := false
  priv := true
  rdPerm := true
  wrPerm := true

/-! ## Registers -/

/-- `state_t`. -/
inductive StateT where
  | idle
  | reloadWaitAck
  | storeWaitAck
  | ncLoadWaitAck
  | doStcx
  | flushCycle
deriving DecidableEq

/-- `reg_stage_0_t`: the latched request, its source, and whether `req.data` has
been sampled. -/
structure RegStage0 where
  req : Loadstore1ToDcache
  mmuReq : Bool
  dValid : Bool

variable (g)

/-- `mem_access_request_t`. -/
structure MemAccessRequest where
  opLmiss : Bool
  opStore : Bool
  opFlush : Bool
  opSync : Bool
  nc : Bool
  valid : Bool
  dcbz : Bool
  flush : Bool
  touch : Bool
  sync : Bool
  reserve : Bool
  firstDw : Bool
  lastDw : Bool
  realAddr : RealAddr
  data : Dword
  byteSel : ByteSel
  isHit : Bool
  hitWay : Way g
  hitWays : WayExpand g
  hitReload : Bool
  samePage : Bool
  mmuReq : Bool
  tlbHit : Bool
  tlbIndex : TlbIndex g
  tlbWay : TlbWay g

/-- `reservation_t`. -/
structure Reservation where
  valid : Bool
  addr : BitVec (56 - g.lineOffBits)

/-- The part of `reg_stage_1_t` that the process `dcache_fast_hit` drives. -/
structure FastRegs where
  mmuReq : Bool
  dataOut : Dword
  forwardData : Dword
  forwardSel : ByteSel
  forwardValid : Bool
  forwardRow : Row g
  forwardWay : Way g
  hitLoadValid : Bool
  cacheHit : Bool
  cacheParadox : Bool
  reserveNc : Bool
  lsError : Bool
  mmuError : Bool
  tlbHit : Bool
  tlbHitWay : TlbWay g
  tlbHitWays : TlbWay g → Bool
  tlbHitIndex : TlbIndex g
  tlbVictim : TlbWay g

/-- The registers that the process `dcache_slow` drives: the rest of
`reg_stage_1_t`, the valid bits, the tag RAM and the reservation. -/
structure SlowRegs where
  full : Bool
  req : MemAccessRequest g
  atomicMore : Bool
  hitWay : Way g
  hitIndex : Index g
  prevHit : Bool
  prevWay : Way g
  prevHitWays : WayExpand g
  prevHitReload : Bool
  lsTlbHit : Bool
  tlbAccIndex : TlbIndex g
  tlbAccWay : TlbWay g
  state : StateT
  dcbz : Bool
  writeBram : Bool
  writeTag : Bool
  slowValid : Bool
  wb : WishboneMasterOut
  reloading : Bool
  reloadTag : CacheTag g
  storeWay : Way g
  storeWays : WayExpand g
  storeRow : Row g
  storeIndex : Index g
  endRowIx : RowInLine g
  rowsValid : RowInLine g → Bool
  acksPending : BitVec 3
  stalled : Bool
  decAcks : Bool
  chooseVictim : Bool
  victimWay : Way g
  lsValid : Bool
  mmuDone : Bool
  stcxFail : Bool
  cacheTags : Index g → Way g → CacheTag g
  cacheValids : Index g → WayExpand g
  reservation : Reservation g

/-- The DTLB arrays and the row of them read for the request in `r0`. -/
structure TlbRegs where
  dtlbValids : TlbIndex g → TlbWay g → Bool
  dtlbTags : TlbIndex g → TlbWay g → TlbTag g
  dtlbPtes : TlbIndex g → TlbWay g → BitVec 64
  tlbValidWay : TlbWay g → Bool
  tlbTagWay : TlbWay g → TlbTag g
  tlbPteWay : TlbWay g → BitVec 64
  tlbReadValid : Bool
  tlbPlruRam : TlbIndex g → Plru.Tree

/-- The RAMs with their output registers, and the snoop registers. -/
structure RamRegs where
  cacheTagSet : Way g → CacheTag g
  snoopTagSet : Way g → CacheTag g
  snoopPaddr : RealAddr
  snoopValid : Bool
  plruRam : Index g → Plru.Tree
  /-- The data BRAM of each way, `cache_ram`. -/
  ram : Way g → Row g → Dword
  /-- Its output register `rd_data0`. -/
  rdData : Way g → Dword

/-- All registers of the dcache.  `r1` of the source is split by the process
that drives its fields: `r1` is driven by `dcache_slow`, `fast` by
`dcache_fast_hit`. -/
structure State where
  r0 : RegStage0
  r0Full : Bool
  r1 : SlowRegs g
  fast : FastRegs g
  tlb : TlbRegs g
  rams : RamRegs g

/-- The inputs of one clock cycle (outside reset). -/
structure Input where
  dIn : Loadstore1ToDcache
  mIn : MmuToDcache
  snoopIn : WishboneMasterOut
  wishboneIn : WishboneSlaveOut
deriving DecidableEq

end Microwatt.Dcache
