import Microwatt.Helpers
import Microwatt.Lib.Run

/-!
# The interrupt controller

`xics.vhdl`: the source unit `xics_ics`, which picks for each cpu the most favoured of the
interrupts that are pending and directed to it, and the presentation unit `xics_icp`, which compares
that with the priority of the cpu.  A lower number is a more favoured priority.
-/

namespace Microwatt.Xics

/-- The generics.  `SRC_NUM` is 16, as the source asserts; `ics_to_icp_t` has room for four cpus and
`priority_encoder` takes at most six bits. -/
structure Generics where
  ncpus : Nat
  prioBits : Nat
  ncpus_le : ncpus ≤ 4
  prioBits_pos : 0 < prioBits
  prioBits_le : prioBits ≤ 6

variable (g : Generics)

/-- `wb_io_master_out`. -/
structure WbIn where
  adr : BitVec 30
  dat : BitVec 32
  sel : BitVec 4
  cyc : Bool
  stb : Bool
  we : Bool

/-- `ics_to_icp_t`, cpu by cpu. -/
structure IcsToIcp where
  src : Fin 4 → BitVec 4
  pri : Fin 4 → BitVec 8

/-- `bswap`. -/
def bswap (v : BitVec 32) : BitVec 32 :=
  v.extractLsb' 0 8 ++ v.extractLsb' 8 8 ++ v.extractLsb' 16 8 ++ v.extractLsb' 24 8

/-! ## Priorities -/

section

variable {g}

/-- `pri_masked`. -/
def priMasked : BitVec g.prioBits :=
  BitVec.allOnes g.prioBits

/-- `prio_pack`. -/
def prioPack (pri8 : BitVec 8) : BitVec g.prioBits :=
  if pri8.toNat ≥ 2 ^ g.prioBits - 1 then priMasked else pri8.setWidth g.prioBits

/-- `prio_unpack`. -/
def prioUnpack (pri : BitVec g.prioBits) : BitVec 8 :=
  if pri = priMasked then 0xff else pri.setWidth 8

/-- `prio_decode`. -/
def prioDecode (pri : BitVec g.prioBits) : BitVec (2 ^ g.prioBits) :=
  1#_ <<< pri.toNat

end

/-- `priority_encoder`. -/
def priorityEncoder {nbits : Nat} (v : BitVec (2 ^ nbits)) : BitVec nbits :=
  let h := v ||| (1#_ <<< (2 ^ nbits - 1))
  (Helpers.countRightZeroes h).setWidth nbits

/-- `server_check`. -/
def serverCheck (servIn : BitVec 8) : BitVec 2 :=
  if servIn.toNat < g.ncpus then servIn.setWidth 2 else 0

/-! ## The source unit -/

/-- `xive_t`. -/
structure Xive where
  pri : BitVec g.prioBits
  server : BitVec 2

/-- The registers of `xics_ics`. -/
structure Ics where
  xives : Fin 16 → Xive g
  intLevelL : BitVec 16
  icpOut : IcsToIcp
  wbDat : BitVec 32
  wbAck : Bool

namespace Ics

variable {g} (s : Ics g)

/-- Source `i` has its level high and is directed to the cpu. -/
def directed (cpu : Nat) (i : Fin 16) : Bool :=
  s.intLevelL.getLsbD i && (s.xives i).server.toNat == cpu

/-- `pending_pri` in `irq_gen`. -/
def pendingPri (cpu : Nat) : BitVec (2 ^ g.prioBits) :=
  (List.finRange 16).foldl
    (fun v i => if s.directed cpu i then v ||| prioDecode (s.xives i).pri else v) 0

/-- `max_pri`. -/
def maxPri (cpu : Nat) : BitVec g.prioBits :=
  priorityEncoder (s.pendingPri cpu)

/-- `pending_at_pri`. -/
def pendingAtPri (cpu : Nat) : BitVec (2 ^ 4) :=
  (List.finRange 16).foldl
    (fun v i => if s.directed cpu i && (s.xives i).pri == s.maxPri cpu
      then v ||| (1#(2 ^ 4) <<< i.val) else v) 0

/-- `max_idx`. -/
def maxIdx (cpu : Nat) : BitVec 4 :=
  priorityEncoder (s.pendingAtPri cpu)

/-- `icp_out_next`. -/
def icpOutNext : IcsToIcp where
  src cpu := if cpu < g.ncpus then s.maxIdx cpu else 0
  pri cpu := if cpu < g.ncpus then prioUnpack (s.maxPri cpu) else 0

/-- `reg_idx`. -/
def regIdx (wb : WbIn) : Fin 16 :=
  (wb.adr.extractLsb' 0 4).toFin

/-- The register that `reg_read` puts on the bus. -/
def regRead (wb : WbIn) : BitVec 32 :=
  let x := s.xives (regIdx wb)
  let level := s.intLevelL.getLsbD (regIdx wb)
  if wb.adr.getLsbD 9 then
    BitVec.ofBool level ++ 0#1 ++ BitVec.ofBool level ++ 0#19 ++ x.server ++ prioUnpack x.pri
  else if wb.adr.extractLsb' 0 10 = 0 then
    0#4 ++ BitVec.ofNat 4 g.prioBits ++ BitVec.ofNat 24 16
  else if wb.adr.extractLsb' 0 10 = 1 then
    let o := s.icpOutNext
    o.src 3 ++ o.src 2 ++ o.src 1 ++ o.src 0 ++ o.pri 1 ++ o.pri 0
  else 0

/-- `reg_write`. -/
def regWrite (rst : Bool) (wb : WbIn) : Fin 16 → Xive g :=
  if rst then fun _ => ⟨priMasked, 0⟩
  else if wb.cyc && wb.stb && wb.we && wb.adr.getLsbD 9 then
    let beIn := bswap wb.dat
    let x := s.xives (regIdx wb)
    Function.update s.xives (regIdx wb)
      ⟨if wb.sel.getLsbD 3 then prioPack (beIn.extractLsb' 0 8) else x.pri,
        if wb.sel.getLsbD 2 then serverCheck g (beIn.extractLsb' 8 8) else x.server⟩
  else s.xives

/-- One clock edge of `xics_ics`. -/
def step (rst : Bool) (wb : WbIn) (intLevelIn : BitVec 16) : Ics g where
  xives := s.regWrite rst wb
  intLevelL := intLevelIn
  icpOut := s.icpOutNext
  wbDat := bswap (s.regRead wb)
  wbAck := wb.cyc && wb.stb

end Ics

/-! ## The presentation unit -/

/-- `xics_presentation_t`. -/
structure Presentation where
  xisr : BitVec 24
  cppr : BitVec 8
  mfrr : BitVec 8
  irq : Bool

/-- `xics_presentation_t_init`. -/
def Presentation.init : Presentation := ⟨0, 0, 0xff, false⟩

/-- The registers of `xics_icp`. -/
structure Icp where
  icp : Fin g.ncpus → Presentation
  wbRdData : BitVec 32
  wbAck : Bool
  coreIrqOut : Fin g.ncpus → Bool

/-- The registers of a cpu: `XIRR_POLL`, `XIRR`, `RESV0` and `MFRR`, by their offset in words. -/
inductive Reg where
  | xirrPoll
  | xirr
  | resv0
  | mfrr
deriving DecidableEq

def WbIn.reg (wb : WbIn) : Reg :=
  match (wb.adr.extractLsb' 0 2).toNat with
  | 0 => .xirrPoll
  | 1 => .xirr
  | 2 => .resv0
  | _ => .mfrr

/-- The access is to a register of the cpu. -/
def WbIn.hits (wb : WbIn) (i : Nat) : Bool :=
  wb.cyc && wb.stb && (wb.adr.extractLsb' 2 4).toNat == i

namespace Presentation

variable (p : Presentation) (hit : Bool) (wb : WbIn) (src : BitVec 4) (pri : BitVec 8)

/-- `be_out` for an access to this cpu. -/
def beOut : BitVec 32 :=
  match wb.reg with
  | .xirrPoll => p.cppr ++ p.xisr
  | .xirr => p.cppr ++ p.xisr
  | .mfrr => p.mfrr ++ 0#24
  | .resv0 => 0

/-- `xirr_accept_rd`. -/
def xirrAcceptRd : Bool :=
  hit && !wb.we && wb.reg == .xirr && wb.sel == 0xf

/-- CPPR after a write. -/
def writeCppr : BitVec 8 :=
  if hit && wb.we && (wb.reg == .xirrPoll || wb.reg == .xirr)
  then (bswap wb.dat).extractLsb' 24 8 else p.cppr

/-- MFRR after a write. -/
def writeMfrr : BitVec 8 :=
  if hit && wb.we && wb.reg == .mfrr then (bswap wb.dat).extractLsb' 24 8 else p.mfrr

/-- `pending_priority` and the XISR that goes with it: from the source unit, or MFRR. -/
def pending : BitVec 24 × BitVec 8 :=
  let v := if pri ≠ 0xff then (0x00001#20 ++ src, pri) else (0, 0xff)
  if p.mfrr < v.2 then (2, p.mfrr) else v

/-- The registers of one cpu after an edge. -/
def next : Presentation :=
  let cppr := if xirrAcceptRd hit wb then (p.pending src pri).2 else p.writeCppr hit wb
  { xisr := (p.pending src pri).1
    cppr := cppr
    mfrr := p.writeMfrr hit wb
    irq := (p.pending src pri).2 < cppr }

end Presentation

namespace Icp

variable {g} (r : Icp g)

/-- What a read returns, before the bytes are swapped. -/
def beOut (wb : WbIn) : BitVec 32 :=
  (List.finRange g.ncpus).foldl
    (fun b (i : Fin g.ncpus) => if wb.hits i && !wb.we then (r.icp i).beOut wb else b) 0

/-- One clock edge of `xics_icp`. -/
def step (rst : Bool) (wb : WbIn) (icsIn : IcsToIcp) : Icp g where
  icp i :=
    if rst then Presentation.init
    else (r.icp i).next (wb.hits i) wb (icsIn.src (i.castLE g.ncpus_le))
      (icsIn.pri (i.castLE g.ncpus_le))
  wbRdData := if rst then 0 else bswap (r.beOut wb)
  wbAck := if rst then false else wb.cyc && wb.stb
  coreIrqOut i := (r.icp i).irq

end Icp

/-! ## The controller -/

structure State where
  ics : Ics g
  icp : Icp g

/-- The inputs of a cycle. -/
structure Input where
  rst : Bool
  wbIcs : WbIn
  wbIcp : WbIn
  intLevelIn : BitVec 16

variable {g}

/-- One clock edge, with the two units connected. -/
def step (s : State g) (i : Input) : State g where
  ics := s.ics.step i.rst i.wbIcs i.intLevelIn
  icp := s.icp.step i.rst i.wbIcp s.ics.icpOut

end Microwatt.Xics
