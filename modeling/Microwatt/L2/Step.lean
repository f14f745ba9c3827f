import Microwatt.Wishbone
import Microwatt.Plru
import Microwatt.SyncFifo
import Microwatt.Lib.Run

/-!
# The L2 cache

`litedram-wrapper-l2.vhdl` between the wishbone and the user port of litedram: the request latch and
the stash, the response pipelines, the lookup, the store queue and the refill machine.  The control
bus and the initialisation RAM are left out.
-/

namespace Microwatt.L2

open SyncFifo

/-- The generics, as numbers of address bits: the doubleword in a row, the row in a line, the line
in a way, the tag, and the way. -/
structure Geometry where
  wselBits : Nat
  rowLineBits : Nat
  indexBits : Nat
  tagBits : Nat
  wayBits : Nat
  storeqDepth : Nat
  noLsOverlap : Bool
  storeqDepth_pos : 0 < storeqDepth

variable (g : Geometry)

theorem Geometry.ways_pos : 0 < 2 ^ g.wayBits := by positivity

abbrev Way := Fin (2 ^ g.wayBits)

/-- A row of the cache and of the DRAM port, by byte. -/
abbrev Row := Nat → BitVec 8

/-! ## Addresses -/

/-- `ROW_PER_LINE`. -/
def rowPerLine : Nat :=
  2 ^ g.rowLineBits

/-- The doubleword in its row: `req_wsl`. -/
def wslOf (adr : WbAddr) : Nat :=
  adr.toNat % 2 ^ g.wselBits

/-- The DRAM address of the row; the address bits above it are dropped. -/
def dramAddr (adr : WbAddr) : Nat :=
  adr.toNat / 2 ^ g.wselBits % 2 ^ (g.tagBits + g.indexBits + g.rowLineBits)

/-- `get_index`. -/
def getIndex (adr : WbAddr) : Nat :=
  dramAddr g adr / rowPerLine g % 2 ^ g.indexBits

/-- `get_row`. -/
def getRow (adr : WbAddr) : Nat :=
  dramAddr g adr % 2 ^ (g.indexBits + g.rowLineBits)

/-- `get_tag`. -/
def getTag (adr : WbAddr) : Nat :=
  dramAddr g adr / 2 ^ (g.indexBits + g.rowLineBits)

/-- `is_last_row` and `is_last_row_addr`.  With one row in a line both sides are empty vectors, and
the comparison of those is false. -/
def isLastRow (row last : Nat) : Bool :=
  0 < g.rowLineBits && row % rowPerLine g == last

/-- `next_row` and `next_row_addr`: only the row in the line is incremented. -/
def nextRow (row : Nat) : Nat :=
  row / rowPerLine g * rowPerLine g + (row % rowPerLine g + 1) % rowPerLine g

/-! ## Data -/

def byteOf (d : Dword) (j : Nat) : BitVec 8 :=
  d.extractLsb' (8 * j) 8

/-- The doubleword of eight bytes. -/
def dwordOf (f : Nat → BitVec 8) : Dword :=
  f 7 ++ f 6 ++ f 5 ++ f 4 ++ f 3 ++ f 2 ++ f 1 ++ f 0

/-- An entry of the store queue: `storeq_wr_data`. -/
structure StoreEntry where
  dat : Dword
  sel : ByteSel
  wsl : Nat

/-- `req_we` and `user_port0_wdata_we`. -/
def StoreEntry.we (e : StoreEntry) (b : Nat) : Bool :=
  b / 8 == e.wsl && e.sel.getLsbD (b % 8)

/-- `req_wdata` and `user_port0_wdata_data`. -/
def StoreEntry.data (e : StoreEntry) : Row :=
  fun b => byteOf e.dat (b % 8)

def entryOf (q : WishboneMasterOut) : StoreEntry :=
  ⟨q.dat, q.sel, wslOf g q.adr⟩

/-- The selected bytes of `data` in `old`. -/
def mergeRow (we : Nat → Bool) (data old : Row) : Row :=
  fun b => if we b then data b else old b

/-! ## Registers -/

/-- `cache_ram` with the buffer at its output. -/
structure Ram where
  ram : Nat → Row
  rdData0 : Row
  rdData : Row

/-- `state_t`. -/
inductive Phase where
  | idle | clrTag | waitAck
deriving DecidableEq

structure State where
  wbReq : WishboneMasterOut
  wbStash : WishboneMasterOut
  readAck0 : Bool
  readAck1 : Bool
  readWsl0 : Nat
  readWsl1 : Nat
  readWay0 : Way g
  readWay1 : Way g
  storeAck1 : Bool
  phase : Phase
  refillCmdValid : Bool
  refillCmdAddr : Nat
  refillWay : Way g
  refillIndex : Nat
  refillRow : Nat
  refillEndRow : Nat
  refillRowsVlid : Nat → Bool
  cacheValids : Nat → Way g → Bool
  cacheTags : Nat → Way g → Nat
  plruRam : Nat → Plru.Tree
  rams : Way g → Ram
  storeq : Fifo StoreEntry

/-- The wishbone, and the outputs of litedram. -/
structure Input where
  wbIn : WishboneMasterOut
  cmdReady : Bool
  wdataReady : Bool
  rdataValid : Bool
  rdataData : Row

/-- `req_op_t`. -/
inductive ReqOp where
  | none | loadHit | loadMiss | storeHit | storeMiss | storeDelayed
deriving DecidableEq

/-- The operation is a store that is not delayed. -/
def ReqOp.isStore (op : ReqOp) : Bool :=
  op == .storeHit || op == .storeMiss

variable {g}

/-! ## Lookup -/

section

variable (s : State g) (i : Input)

/-- `valid` in `request_decode`. -/
def reqValid : Bool :=
  s.wbReq.cyc && s.wbReq.stb

/-- The way holds the row that is asked for. -/
def wayHit (w : Way g) : Bool :=
  reqValid s &&
    (s.cacheValids (getIndex g s.wbReq.adr) w ||
      s.phase == .waitAck && getIndex g s.wbReq.adr == s.refillIndex && w == s.refillWay &&
        s.refillRowsVlid (getRow g s.wbReq.adr % rowPerLine g)) &&
    s.cacheTags (getIndex g s.wbReq.adr) w == getTag g s.wbReq.adr

/-- `is_hit` and `hit_way`. -/
def hit : Bool × Way g :=
  (List.finRange (2 ^ g.wayBits)).foldl (fun acc w => if wayHit s w then (true, w) else acc)
    (false, ⟨0, g.ways_pos⟩)

/-- `store_delay`. -/
def storeDelay : Bool :=
  s.readAck0 || s.readAck1 || s.phase != .idle

/-- `req_op`. -/
def reqOp : ReqOp :=
  if reqValid s then
    if s.wbReq.we then
      if storeDelay s then .storeDelayed else if (hit s).1 then .storeHit else .storeMiss
    else if (hit s).1 then .loadHit else .loadMiss
  else .none

/-! ## The port of litedram -/

/-- `storeq_wr_ready`. -/
def storeqWrReady : Bool :=
  s.storeq.wrReady i.wdataReady

/-- `storeq_wr_valid`. -/
def storeqWrValid : Bool :=
  (reqOp s).isStore && i.cmdReady

/-- `storeq_rd_valid`, which is `user_port0_wdata_valid`. -/
def storeqRdValid : Bool :=
  s.storeq.rdValid (storeqWrValid s i)

/-- `storeq_rd_data`, which gives `user_port0_wdata_we` and `user_port0_wdata_data`. -/
def storeqRdData : StoreEntry :=
  s.storeq.rdData (entryOf g s.wbReq)

/-- `user_port0_cmd_valid`. -/
def cmdValid : Bool :=
  if (reqOp s).isStore then storeqWrReady s i else s.refillCmdValid

/-- `user_port0_cmd_we`. -/
def cmdWe : Bool :=
  (reqOp s).isStore

/-- `user_port0_cmd_addr`. -/
def cmdAddr : Nat :=
  if (reqOp s).isStore then dramAddr g s.wbReq.adr else s.refillCmdAddr

/-! ## Responses -/

/-- `accept_store`. -/
def acceptStore : Bool :=
  i.cmdReady && storeqWrReady s i

/-- `stall`. -/
def stall : Bool :=
  if (reqOp s).isStore then !acceptStore s i
  else reqOp s == .loadMiss || reqOp s == .storeDelayed

/-- `store_ack_0`. -/
def storeAck0 : Bool :=
  (reqOp s).isStore && acceptStore s i

/-- `wb_out`. -/
def wbOut : WishboneSlaveOut where
  dat := dwordOf fun j => (s.rams s.readWay1).rdData (8 * s.readWsl1 + j)
  ack := s.readAck1 || s.storeAck1
  stall := s.wbStash.cyc

/-! ## Edges -/

/-- `request_latch`: the latched and the stashed request. -/
def requestLatch : WishboneMasterOut × WishboneMasterOut :=
  let stash :=
    if stall s i && !s.wbStash.cyc && i.wbIn.cyc && i.wbIn.stb then i.wbIn else s.wbStash
  if stall s i then (s.wbReq, stash)
  else if s.wbStash.cyc then (s.wbStash, { stash with cyc := false })
  else if i.wbIn.cyc then (i.wbIn, stash)
  else ({ s.wbReq with cyc := i.wbIn.cyc, stb := i.wbIn.stb }, stash)

/-- `cache_ram` of one way. -/
def ramNext (w : Way g) : Ram :=
  let m := s.rams w
  let row := getRow g s.wbReq.adr
  { ram :=
      if reqOp s == .storeHit && (hit s).2 == w then
        let e := entryOf g s.wbReq
        Function.update m.ram row (mergeRow e.we e.data (m.ram row))
      else if i.rdataValid && s.refillWay == w then
        Function.update m.ram s.refillRow i.rdataData
      else m.ram
    rdData0 := m.ram row
    rdData := m.rdData0 }

/-- `cmds_done`, at the end of the cycle. -/
def cmdsDone : Bool :=
  !s.refillCmdValid || i.cmdReady && isLastRow g s.refillCmdAddr s.refillEndRow

/-- The last row of the line comes in. -/
def refillDone : Bool :=
  i.rdataValid && cmdsDone s i && isLastRow g s.refillRow s.refillEndRow

/-- The miss that starts a refill. -/
def startRefill : Bool :=
  reqOp s == .loadMiss && !(g.noLsOverlap && storeqRdValid s i)

/-- `refill_machine`, outside reset. -/
def refillMachine : State g :=
  match s.phase with
  | .idle =>
      if startRefill s i then
        { s with
          refillRowsVlid := fun _ => false
          refillWay := Plru.getLru g.wayBits (s.plruRam (getIndex g s.wbReq.adr))
          refillIndex := getIndex g s.wbReq.adr
          refillRow := getRow g s.wbReq.adr
          refillEndRow :=
            (getRow g s.wbReq.adr % rowPerLine g + (rowPerLine g - 1)) % rowPerLine g
          refillCmdAddr := dramAddr g s.wbReq.adr
          refillCmdValid := true
          phase := .clrTag }
      else { s with refillRowsVlid := fun _ => false }
  | _ =>
      { s with
        cacheValids := fun x w =>
          if refillDone s i && x == s.refillIndex && w == s.refillWay then true
          else if s.phase == .clrTag && x == getIndex g s.wbReq.adr && w == s.refillWay then false
          else s.cacheValids x w
        cacheTags := fun x w =>
          if s.phase == .clrTag && x == s.refillIndex && w == s.refillWay
          then getTag g s.wbReq.adr else s.cacheTags x w
        refillCmdValid := !cmdsDone s i
        refillCmdAddr :=
          if i.cmdReady && s.refillCmdValid && !isLastRow g s.refillCmdAddr s.refillEndRow
          then nextRow g s.refillCmdAddr else s.refillCmdAddr
        refillRowsVlid := fun r =>
          if i.rdataValid && r == s.refillRow % rowPerLine g then true else s.refillRowsVlid r
        refillRow := if i.rdataValid then nextRow g s.refillRow else s.refillRow
        phase := if refillDone s i then .idle else .waitAck }

/-- One clock edge outside reset. -/
def step : State g :=
  { refillMachine s i with
    wbReq := (requestLatch s i).1
    wbStash := (requestLatch s i).2
    readAck0 := reqOp s == .loadHit
    readWsl0 := wslOf g s.wbReq.adr
    readWay0 := (hit s).2
    readAck1 := s.readAck0
    readWsl1 := s.readWsl0
    readWay1 := s.readWay0
    storeAck1 := storeAck0 s i
    plruRam := fun x =>
      if (reqOp s == .loadHit || reqOp s == .storeHit) && x == getIndex g s.wbReq.adr
      then Plru.updateLru g.wayBits (hit s).2 (s.plruRam x) else s.plruRam x
    rams := ramNext s i
    storeq := s.storeq.step g.storeqDepth i.wdataReady (storeqWrValid s i) (entryOf g s.wbReq) }

end

end Microwatt.L2
