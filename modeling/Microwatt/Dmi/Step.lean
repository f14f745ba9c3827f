import Microwatt.Wishbone
import Microwatt.Lib.Run

/-!
# The debug bus

The JTAG bridge of `dmi_dtm_xilinx.vhdl`, the decoder of the debug bus in `soc.vhdl` and the
wishbone debug master.  There are two clocks, the JTAG clock `tck` and the system clock.  Of the
debug unit of a core only the handshake is here: its registers answer at once, apart from GSPR_DATA,
where it waits for the register file or for the unit that has the SPR.
-/

namespace Microwatt.Dmi

/-! ## Words of a scan -/

/-- The shift register and the request: an address, data and an operation. -/
abbrev Word := BitVec 74

/-- `DMI_REQ_RD`. -/
def dmiReqRd : BitVec 2 := 1

/-- `DMI_REQ_WR`. -/
def dmiReqWr : BitVec 2 := 2

/-- `DMI_RSP_OK`. -/
def dmiRspOk : BitVec 2 := 0

/-- `DMI_RSP_BSY`. -/
def dmiRspBsy : BitVec 2 := 3

def pack (addr : BitVec 8) (data : Dword) (op : BitVec 2) : Word :=
  addr ++ data ++ op

def addrOf (w : Word) : BitVec 8 :=
  w.extractLsb' 66 8

def dataOf (w : Word) : Dword :=
  w.extractLsb' 2 64

def opOf (w : Word) : BitVec 2 :=
  w.extractLsb' 0 2

@[simp] theorem addrOf_pack (a : BitVec 8) (d : Dword) (o : BitVec 2) :
    addrOf (pack a d o) = a := by
  ext j hj
  simp only [addrOf, pack, BitVec.getElem_extractLsb', BitVec.getLsbD_append]
  rw [if_neg (by omega), if_neg (by omega), show 66 + j - 2 - 64 = j by omega,
    BitVec.getLsbD_eq_getElem hj]

@[simp] theorem dataOf_pack (a : BitVec 8) (d : Dword) (o : BitVec 2) :
    dataOf (pack a d o) = d := by
  ext j hj
  simp only [dataOf, pack, BitVec.getElem_extractLsb', BitVec.getLsbD_append]
  rw [if_neg (by omega), if_pos (by omega), show 2 + j - 2 = j by omega,
    BitVec.getLsbD_eq_getElem hj]

@[simp] theorem opOf_pack (a : BitVec 8) (d : Dword) (o : BitVec 2) : opOf (pack a d o) = o := by
  ext j hj
  simp only [opOf, pack, BitVec.getElem_extractLsb', BitVec.getLsbD_append]
  rw [if_pos (by omega), show 0 + j = j by omega, BitVec.getLsbD_eq_getElem hj]

/-! ## Registers -/

/-- `dmi_dtm`. -/
structure Dtm where
  shiftr : Word
  request : Word
  jtagReq : Bool
  dmiAck0 : Bool
  dmiAck1 : Bool
  jtagReq0 : Bool
  jtagReq1 : Bool
deriving DecidableEq

/-- `state_t` of the debug master. -/
inductive WbState where
  | idle | wbCycle | dmiWait
deriving DecidableEq

/-- `wishbone_debug_master`. -/
structure DebugMaster where
  regAddr : Dword
  regCtrl : BitVec 11
  dataLatch : Dword
  state : WbState
  doInc : Bool
  stb : Bool
deriving DecidableEq

/-- The request and the ack for GSPR_DATA are registers, one of each for every core. -/
structure State where
  dtm : Dtm
  master : DebugMaster
  gsprReq : Nat → Bool
  gsprAck : Nat → Bool

/-- The signals of the BSCANE2 block at an edge of `tck`. -/
structure Jtag where
  sel : Bool
  capture : Bool
  shift : Bool
  update : Bool
  tdi : Bool
deriving DecidableEq

/-- The wishbone at an edge of the system clock, and the cores that have a GSPR ready. -/
structure SysIn where
  wbIn : WishboneSlaveOut
  gsprDone : Nat → Bool

/-- A moment at which one of the clocks or both have an edge, with what the cores drive then. -/
structure Edge where
  tck : Option Jtag
  sys : Option SysIn
  coreDout : Nat → Dword

/-! ## The debug bus -/

section

variable (ncpus : Nat) (s : State)

def dmiReq : Bool :=
  s.dtm.jtagReq1

def dmiAddr : BitVec 8 :=
  addrOf s.dtm.request

def dmiDout : Dword :=
  dataOf s.dtm.request

def dmiWr : Bool :=
  opOf s.dtm.request == dmiReqWr

/-- `slave_type`, with the number of the core. -/
inductive Slave where
  | wb | core (i : Nat) | none
deriving DecidableEq

/-- The address decoder of `dmi_intercon`. -/
def slaveOf (addr : BitVec 8) : Slave :=
  if addr.extractLsb' 2 6 = 0 then .wb
  else
    let i := (addr.extractLsb' 4 4).toNat
    if 1 ≤ i ∧ i ≤ ncpus then .core (i - 1) else .none

/-- `DBG_WB_ADDR`, `DBG_WB_DATA`, `DBG_WB_CTRL`. -/
def dbgWbAddr : BitVec 2 := 0

def dbgWbData : BitVec 2 := 1

def dbgWbCtrl : BitVec 2 := 2

/-- `DBG_CORE_GSPR_DATA`. -/
def dbgCoreGsprData : BitVec 4 := 5

/-- The low bits of the address, as the debug master has them. -/
def wbReg (addr : BitVec 8) : BitVec 2 :=
  addr.extractLsb' 0 2

/-- `dmi_wb_req`. -/
def dmiWbReq : Bool :=
  dmiReq s && slaveOf ncpus (dmiAddr s) == .wb

/-- `dmi_core_req` with the address of GSPR_DATA. -/
def coreGsprReq (i : Nat) : Bool :=
  dmiReq s && slaveOf ncpus (dmiAddr s) == .core i &&
    (dmiAddr s).extractLsb' 0 4 == dbgCoreGsprData

/-- `dmi_ack` of the debug master. -/
def dmiWbAck : Bool :=
  if wbReg (dmiAddr s) ≠ dbgWbData ∨ s.master.state = .dmiWait then dmiWbReq ncpus s else false

/-- `dmi_ack`. -/
def dmiAck : Bool :=
  match slaveOf ncpus (dmiAddr s) with
  | .wb => dmiWbAck ncpus s
  | .core i =>
      if (dmiAddr s).extractLsb' 0 4 ≠ dbgCoreGsprData then dmiReq s else s.gsprAck i
  | .none => dmiReq s

/-- `dmi_dout` of the debug master. -/
def dmiWbDout : Dword :=
  if wbReg (dmiAddr s) = dbgWbAddr then s.master.regAddr
  else if wbReg (dmiAddr s) = dbgWbData then s.master.dataLatch
  else if wbReg (dmiAddr s) = dbgWbCtrl then s.master.regCtrl.setWidth 64
  else 0

/-- `dmi_din`. -/
def dmiDin (coreDout : Nat → Dword) : Dword :=
  match slaveOf ncpus (dmiAddr s) with
  | .wb => dmiWbDout s
  | .core i => coreDout i
  | .none => BitVec.allOnes 64

/-! ## The JTAG clock -/

/-- `jtag_bsy`. -/
def jtagBsy : Bool :=
  s.dtm.jtagReq || s.dtm.dmiAck1

/-- `op_valid`. -/
def opValid : Bool :=
  opOf s.dtm.shiftr == dmiReqRd || opOf s.dtm.shiftr == dmiReqWr

/-- The edge latches a request. -/
def accepts (j : Jtag) : Bool :=
  j.sel && j.update && opValid s && !jtagBsy s

/-- The edge completes a request. -/
def completes (j : Jtag) : Bool :=
  j.sel && s.dtm.jtagReq && s.dtm.dmiAck1

/-- The registers of the JTAG clock after an edge: `dmi_ack_sync` and `shifter`. -/
def tckEdge (j : Jtag) (coreDout : Nat → Dword) : Dtm :=
  let d := s.dtm
  let shiftr := if j.sel && j.shift then BitVec.cons j.tdi (d.shiftr.extractLsb' 1 73) else d.shiftr
  let shiftr :=
    if j.sel && j.update && opValid s then pack (addrOf shiftr) (dataOf shiftr) dmiRspBsy
      else shiftr
  let shiftr :=
    if j.sel && j.capture then
      pack (addrOf d.request) (dataOf d.request) (if jtagBsy s then dmiRspBsy else dmiRspOk)
    else shiftr
  { d with
    shiftr := shiftr
    request :=
      if completes s j && opOf d.request == dmiReqRd then
        pack (addrOf d.request) (dmiDin ncpus s coreDout) (opOf d.request)
      else if accepts s j then d.shiftr else d.request
    jtagReq := if completes s j then false else if accepts s j then true else d.jtagReq
    dmiAck0 := dmiAck ncpus s
    dmiAck1 := d.dmiAck0 }

/-! ## The system clock -/

/-- `decode_autoinc`. -/
def decodeAutoinc (c : BitVec 2) : Dword :=
  1#64 <<< c.toNat

/-- `wb_out`. -/
def wbOut : WishboneMasterOut where
  adr := s.master.regAddr.extractLsb' 3 29
  dat := dmiDout s
  sel := s.master.regCtrl.extractLsb' 0 8
  cyc := s.master.state == .wbCycle
  stb := s.master.stb
  we := dmiWr s

/-- `wishbone_debug_master`, at an edge. -/
def masterEdge (wbIn : WishboneSlaveOut) : DebugMaster :=
  let m := s.master
  let writes := dmiWbReq ncpus s && dmiWr s
  { regAddr :=
      if m.doInc then m.regAddr + decodeAutoinc (m.regCtrl.extractLsb' 9 2)
      else if writes && wbReg (dmiAddr s) == dbgWbAddr then dmiDout s
      else m.regAddr
    regCtrl :=
      if !m.doInc && writes && wbReg (dmiAddr s) == dbgWbCtrl then (dmiDout s).extractLsb' 0 11
      else m.regCtrl
    dataLatch :=
      if m.state == .wbCycle && wbIn.ack && !dmiWr s then wbIn.dat else m.dataLatch
    state :=
      match m.state with
      | .idle => if dmiWbReq ncpus s && wbReg (dmiAddr s) == dbgWbData then .wbCycle else .idle
      | .wbCycle => if wbIn.ack then .dmiWait else .wbCycle
      | .dmiWait => if !dmiWbReq ncpus s then .idle else .dmiWait
    doInc :=
      match m.state with
      | .idle => m.doInc
      | .wbCycle => if wbIn.ack then m.regCtrl.getLsbD 8 else m.doInc
      | .dmiWait => false
    stb :=
      match m.state with
      | .idle => if dmiWbReq ncpus s && wbReg (dmiAddr s) == dbgWbData then true else m.stb
      | .wbCycle => if !wbIn.stall || wbIn.ack then false else m.stb
      | .dmiWait => m.stb }

/-- The ack of a core is set when the GSPR is ready and stays until the request has gone. -/
def gsprAckEdge (i : SysIn) (c : Nat) : Bool :=
  s.gsprReq c && (s.gsprAck c || i.gsprDone c)

/-! ## One moment -/

/-- Edges of both clocks at the same time see each other's registers as they were before. -/
def step (e : Edge) : State where
  dtm :=
    let d := match e.tck with
      | some j => tckEdge ncpus s j e.coreDout
      | none => s.dtm
    match e.sys with
    | some _ => { d with jtagReq0 := s.dtm.jtagReq, jtagReq1 := s.dtm.jtagReq0 }
    | none => d
  master :=
    match e.sys with
    | some i => masterEdge ncpus s i.wbIn
    | none => s.master
  gsprReq :=
    match e.sys with
    | some _ => coreGsprReq ncpus s
    | none => s.gsprReq
  gsprAck :=
    match e.sys with
    | some i => gsprAckEdge s i
    | none => s.gsprAck

end

end Microwatt.Dmi
