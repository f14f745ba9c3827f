import Microwatt.Wishbone
import Microwatt.Lib.Run

/-!
# The reload machine of the icache

The process `icache_miss`: the registers of a line reload, the valid bits, and the snooping of
writes to memory.  What comes from the rest of the icache (whether the request misses, its address,
the victim way, the tags read for snooping) are inputs of a cycle.
-/

namespace Microwatt.Icache

/-- The generics, as powers of two.  `ROW_SIZE = 8`; a line has `2 ^ rowLinebits` rows and a set
`2 ^ wayBits` ways, and there are `2 ^ indexBits` sets. -/
structure Geometry where
  rowLinebits : Nat
  indexBits : Nat
  wayBits : Nat
  /-- `row_in_line_t` has a bit. -/
  rowLinebits_pos : 0 < rowLinebits
  /-- The number of a row in its line is a slice of the bus address. -/
  rowLinebits_le : rowLinebits ≤ 29

namespace Geometry

variable (g : Geometry)

/-- `LINE_OFF_BITS`. -/
abbrev lineOffBits : Nat := 3 + g.rowLinebits

/-- `SET_SIZE_BITS`. -/
abbrev setSizeBits : Nat := g.lineOffBits + g.indexBits

/-- The tag without the endian bit. -/
abbrev addrTagBits : Nat := 56 - g.setSizeBits

end Geometry

variable (g : Geometry)

/-- `index_sig_t`. -/
abbrev Index := BitVec g.indexBits

/-- `row_in_line_t`. -/
abbrev RowInLine := BitVec g.rowLinebits

/-- `row_t`: the set index above the row of the line. -/
structure Row where
  index : Index g
  rowOfLine : RowInLine g
deriving DecidableEq

/-- `way_t`. -/
abbrev Way := Fin (2 ^ g.wayBits)

/-- `cache_tag_t`: the endian bit above the tag of the address. -/
structure CacheTag where
  endian : Bool
  addr : BitVec g.addrTagBits
deriving DecidableEq

variable {g}

/-! ## Address helper functions -/

/-- `get_index`. -/
def getIndex (addr : RealAddr) : Index g :=
  addr.extractLsb' g.lineOffBits g.indexBits

/-- `get_row`. -/
def getRow {n : Nat} (addr : BitVec n) : Row g where
  index := addr.extractLsb' g.lineOffBits g.indexBits
  rowOfLine := addr.extractLsb' 3 g.rowLinebits

/-- `get_row_of_line`. -/
def getRowOfLine (row : Row g) : RowInLine g :=
  row.rowOfLine

/-- `is_last_row_wb_addr`. -/
def isLastRowWbAddr (wbAddr : WbAddr) (last : RowInLine g) : Bool :=
  wbAddr.extractLsb' 0 g.rowLinebits == last

/-- `is_last_row`. -/
def isLastRow (row : Row g) (last : RowInLine g) : Bool :=
  getRowOfLine row == last

variable (g) in
/-- `next_row_wb_addr`. -/
def nextRowWbAddr (wbAddr : WbAddr) : WbAddr :=
  (wbAddr >>> g.rowLinebits) <<< g.rowLinebits |||
    (wbAddr.extractLsb' 0 g.rowLinebits + 1).setWidth 29

/-- `next_row`. -/
def nextRow (row : Row g) : Row g :=
  { row with rowOfLine := row.rowOfLine + 1 }

/-- `get_tag`. -/
def getTag (addr : RealAddr) (endian : Bool) : CacheTag g where
  endian := endian
  addr := addr.extractLsb' g.setSizeBits g.addrTagBits

/-! ## Registers -/

/-- `state_t`. -/
inductive ReloadState where
  | idle
  | stopReload
  | clrTag
  | waitAck
deriving DecidableEq

variable (g)

/-- The registers that `icache_miss` writes. -/
structure State where
  state : ReloadState
  wb : WishboneMasterOut
  storeWay : Way g
  storeIndex : Index g
  recvRow : Row g
  recvValid : Bool
  storeRow : Row g
  storeTag : CacheTag g
  storeValid : Bool
  endRowIx : RowInLine g
  rowsValid : RowInLine g → Bool
  cacheValids : Index g → Way g → Bool
  snoopValid : Bool
  snoopIndex : Index g
  snoopTag : CacheTag g
  snoopIndex2 : Index g
  snoopHits : Way g → Bool

/-- The inputs of a cycle. -/
structure Input where
  rst : Bool
  invalIn : Bool
  wishboneIn : WishboneSlaveOut
  wbSnoopIn : WishboneMasterOut
  snoopTagsSet : Way g → CacheTag g
  reqIsMiss : Bool
  realAddr : RealAddr
  bigEndian : Bool
  plruVictim : Way g

variable {g} (s : State g) (i : Input g)

/-- `req_raddr`: the address of the row that the request lies in. -/
def Input.reqRaddr : RealAddr :=
  i.realAddr.extractLsb' 3 53 ++ 0#3

/-- The address that a snooped write is to. -/
def Input.snoopAddr : RealAddr :=
  addrToReal (wbToAddr i.wbSnoopIn.adr)

/-- `replace_way`. -/
def replaceWay : Way g :=
  if 1 < 2 ^ g.wayBits then i.plruVictim else 0

/-- Reset. -/
def resetReload : State g :=
  { s with
    recvValid := false
    cacheValids := fun _ _ => false
    state := .idle
    wb := ⟨0, 0, 0xff, false, false, false⟩
    snoopValid := false
    snoopIndex := 0
    snoopHits := fun _ => false }

/-- The snooping of writes, and the invalidations. -/
def snoop : State g :=
  { s with
    recvValid := false
    snoopValid := i.wbSnoopIn.cyc && i.wbSnoopIn.stb && i.wbSnoopIn.we
    snoopIndex := getIndex i.snoopAddr
    snoopTag := getTag i.snoopAddr false
    snoopHits := fun w =>
      s.snoopValid && { i.snoopTagsSet w with endian := false } == s.snoopTag
    snoopIndex2 := s.snoopIndex
    cacheValids := fun ix w =>
      if i.invalIn then false
      else if ix = s.snoopIndex2 ∧ s.snoopHits w = true then false
      else s.cacheValids ix w
    storeValid := if i.invalIn then false else s.storeValid }

/-- State `IDLE`: a miss starts a reload. -/
def reloadIdle (n : State g) : State g :=
  let n := { n with rowsValid := fun _ => false }
  if i.reqIsMiss then
    { n with
      storeIndex := getIndex i.realAddr
      recvRow := getRow i.reqRaddr
      storeRow := getRow i.reqRaddr
      storeTag := getTag i.realAddr i.bigEndian
      storeValid := true
      endRowIx := getRowOfLine (getRow i.reqRaddr) - 1
      wb := { n.wb with adr := addrToWb i.reqRaddr, cyc := true, stb := true }
      state := .clrTag }
  else n

/-- The way that is reloaded no longer hits. -/
def reloadClrTag (n : State g) : State g :=
  { n with
    storeWay := replaceWay i
    cacheValids := fun ix w =>
      if ix = s.storeIndex ∧ w = replaceWay i then false else n.cacheValids ix w
    state := .waitAck }

/-- A row that has arrived is written; the last one makes the line valid. -/
def reloadWrite (n : State g) : State g :=
  let n := { n with
    rowsValid := Function.update n.rowsValid s.storeRow.rowOfLine (!i.invalIn) }
  let n :=
    if isLastRow s.storeRow s.endRowIx then
      { n with
        cacheValids := fun ix w =>
          if ix = s.storeIndex ∧ w = s.storeWay then s.storeValid && !i.invalIn
          else n.cacheValids ix w
        state := .idle }
    else n
  { n with storeRow := s.recvRow }

/-- A request is accepted: the next one. -/
def reloadSend (n : State g) : State g :=
  let n :=
    if isLastRowWbAddr s.wb.adr s.endRowIx then { n with wb := { n.wb with stb := false } } else n
  { n with wb := { n.wb with adr := nextRowWbAddr g s.wb.adr } }

/-- An ack comes in. -/
def reloadAck (n : State g) : State g :=
  let n :=
    if isLastRow s.recvRow s.endRowIx then { n with wb := { n.wb with cyc := false } } else n
  { n with recvValid := true, recvRow := nextRow s.recvRow }

/-- States `CLR_TAG` and `WAIT_ACK`. -/
def reloadWaitAck (n : State g) : State g :=
  let n := if s.state = .clrTag then reloadClrTag s i n else n
  let n := if s.recvValid then reloadWrite s i n else n
  let n := if !i.wishboneIn.stall && s.wb.stb then reloadSend s n else n
  let n :=
    if i.invalIn then { n with wb := { n.wb with stb := false }, state := .stopReload } else n
  if i.wishboneIn.ack then reloadAck s n else n

/-- State `STOP_RELOAD`. -/
def reloadStop (n : State g) : State g :=
  let n :=
    if getRowOfLine s.recvRow = getRowOfLine (getRow (g := g) (wbToAddr s.wb.adr)) then
      { n with wb := { n.wb with cyc := false }, state := .idle }
    else n
  if i.wishboneIn.ack then { n with recvRow := nextRow s.recvRow } else n

/-- One clock edge. -/
def step : State g :=
  if i.rst then resetReload s
  else
    match s.state with
    | .idle => reloadIdle i (snoop s i)
    | .clrTag | .waitAck => reloadWaitAck s i (snoop s i)
    | .stopReload => reloadStop s i (snoop s i)

end Microwatt.Icache
