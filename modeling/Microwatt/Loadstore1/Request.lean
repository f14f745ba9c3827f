import Microwatt.Wishbone
import Microwatt.Execute1.Actions

/-!
# Requests of the load/store unit

The record `request_t` of `loadstore1.vhdl` and the process `loadstore1_in`, which makes a request
of the instruction that execute1 presents.
-/

namespace Microwatt.Loadstore1

open Execute1 (InsnOp InstrTag XerCommon)

/-- `Execute1ToLoadstore1Type`, less `msr`, which the unit does not read. -/
structure Execute1ToLoadstore1 where
  valid : Bool
  op : InsnOp
  insn : BitVec 32
  instrTag : InstrTag
  addr1 : BitVec 64
  addr2 : BitVec 64
  data : BitVec 64
  writeReg : BitVec 6
  length : BitVec 4
  ci : Bool
  byteReverse : Bool
  signExtend : Bool
  update : Bool
  hash : Bool
  xerc : XerCommon
  reserve : Bool
  rc : Bool
  virtMode : Bool
  privMode : Bool
  mode32bit : Bool
  is32bit : Bool
  prefixed : Bool
  rpt : Bool
  second : Bool
  e2stall : Bool
  hashkey : BitVec 64
  hashEnable : Bool
deriving DecidableEq

/-- `request_t`. -/
structure Request where
  valid : Bool
  dcReq : Bool
  load : Bool
  store : Bool
  flush : Bool
  touch : Bool
  sync : Bool
  tlbie : Bool
  dcbz : Bool
  hashst : Bool
  hashcmp : Bool
  readSpr : Bool
  writeSpr : Bool
  mmuOp : Bool
  instrFault : Bool
  doUpdate : Bool
  mode32bit : Bool
  prefixed : Bool
  addr : BitVec 64
  byteSel : BitVec 8
  secondBytes : BitVec 8
  storeData : BitVec 64
  instrTag : InstrTag
  writeReg : BitVec 6
  length : BitVec 4
  eltLength : BitVec 4
  byteReverse : Bool
  brevMask : BitVec 3
  signExtend : Bool
  update : Bool
  xerc : XerCommon
  reserve : Bool
  atomicQw : Bool
  atomicFirst : Bool
  atomicLast : Bool
  rc : Bool
  nc : Bool
  virtMode : Bool
  privMode : Bool
  loadSp : Bool
  sprsel : BitVec 4
  ric : BitVec 2
  isSlbia : Bool
  alignIntr : Bool
  dawrIntr : Bool
  dwordIndex : Bool
  twoDwords : Bool
  incomplete : Bool
  eaValid : Bool
  hashAddr : BitVec 64
deriving DecidableEq

/-! ## Byte selects and single-precision stores -/

/-- `length_to_sel`. -/
def lengthToSel (length : BitVec 4) : BitVec 8 :=
  if length = 1 then 0x01 else if length = 2 then 0x03 else if length = 4 then 0x0f
  else if length = 8 then 0xff else 0

/-- `xfer_data_sel`: the selects of the two transfers of an unaligned access. -/
def xferDataSel (size : BitVec 4) (address : BitVec 3) : BitVec 16 :=
  (lengthToSel size).setWidth 16 <<< address.toNat

/-- The distance that the two stages of `shifter_23r` and of `shifter_23l` shift by. -/
def shiftDistance (shift : BitVec 5) : Nat :=
  (shift.extractLsb' 0 2).toNat + 4 * min 5 (shift.extractLsb' 2 3).toNat

/-- `dp_to_sp`: double to single precision for `stfs`. -/
def storeSpData (data : BitVec 64) : BitVec 32 :=
  let exp := data.extractLsb' 52 11
  let sign := data.extractLsb' 63 1
  if 896 < exp.toNat then
    sign ++ data.extractLsb' 62 1 ++ data.extractLsb' 29 30
  else if 874 ≤ exp.toNat then
    -- denormalization required
    let frac : BitVec 23 := 1#1 ++ data.extractLsb' 30 22
    sign ++ 0#8 ++ (frac >>> shiftDistance (0 - exp.extractLsb' 0 5))
  else
    sign ++ 0#31

/-! ## The request of an instruction -/

section

variable (hasFpu : Bool) (l : Execute1ToLoadstore1) (addr0 : BitVec 64)

/-- `sprn`, the number of the SPR of an `mtspr` or `mfspr`. -/
def sprn : BitVec 10 :=
  l.insn.extractLsb' 11 5 ++ l.insn.extractLsb' 16 5

def sprselIn : BitVec 4 :=
  if (sprn l).extractLsb' 7 2 = 1 then
    -- debug registers DAWR[X][01]
    1#2 ++ (sprn l).extractLsb' 3 1 ++ (sprn l).extractLsb' 0 1
  else if (sprn l).getLsbD 1 then
    -- DSISR and DAR
    1#3 ++ (sprn l).extractLsb' 0 1
  else
    -- PID and PTCR
    4#3 ++ (sprn l).extractLsb' 8 1

/-- Trim an address to 32 bits in 32-bit mode. -/
def trimAddr (mode32bit : Bool) (addr : BitVec 64) : BitVec 64 :=
  if mode32bit then (addr.extractLsb' 0 32).setWidth 64 else addr

/-- The effective address.  The second instance of an update form repeats the address of the
first, and that of a quadword takes the next doubleword. -/
def addrIn : BitVec 64 :=
  trimAddr l.mode32bit <|
    if l.second then
      (addr0.extractLsb' 3 61 + (if l.update then 0 else 1)) ++ addr0.extractLsb' 0 3
    else
      l.addr1 + l.addr2

/-- `hash_addr`: a short displacement, a negative multiple of 8. -/
def hashAddrIn : BitVec 64 :=
  trimAddr l.mode32bit <|
    l.addr1 + (0x7FFFFFFFFFFFFF#55 ++ l.insn.extractLsb' 0 1 ++ l.insn.extractLsb' 21 5 ++ 0#3)

/-- `misaligned`, which for a quadword is about all sixteen bytes. -/
def misaligned : Bool :=
  ((l.length.extractLsb' 0 3 - 1) &&& (addrIn l addr0).extractLsb' 0 3 != 0) ||
    (l.rpt && !l.update && ((addrIn l addr0).getLsbD 3 != l.second))

/-- A load or store of a quadword: `lq plq stq pstq lqarx stqcx`. -/
def isQuad : Bool :=
  l.rpt && !l.update

/-- `align_intr`.  Non-prefixed `lq` in LE mode has to be aligned, since RA may be RT+1. -/
def alignIntrIn : Bool :=
  (l.reserve || (l.hash && l.hashEnable)) && misaligned l addr0 ||
    (isQuad l && misaligned l addr0 && (l.op == .load) && !l.byteReverse && !l.prefixed)

/-- An update-form load makes its second instance only write back the address. -/
def doUpdateIn : Bool :=
  l.op == .load && l.update && l.second

def loadIn : Bool :=
  l.op == .load && !doUpdateIn l || l.op == .dcbf

/-- `hash_nop`: the enable is looked at for every load and store, not only for hash ones. -/
def hashNop : Bool :=
  (l.op == .store || l.op == .load) && !l.hashEnable

def dcReqIn : Bool :=
  l.valid && (loadIn l || l.op == .store || l.op == .sync || l.op == .dcbz || l.op == .tlbie) &&
    !alignIntrIn l addr0 && !hashNop l

/-- `long_sel`. -/
def longSel : BitVec 16 :=
  xferDataSel l.length ((addrIn l addr0).extractLsb' 0 3)

/-- The process `loadstore1_in`: `req_in`. -/
def reqIn : Request where
  valid := l.valid
  dcReq := dcReqIn l addr0
  load := loadIn l
  store := l.op == .store
  flush := l.op == .dcbf
  touch := l.length = 0 && (l.op == .store || l.op == .load && !doUpdateIn l)
  sync := l.op == .sync
  tlbie := l.op == .tlbie
  dcbz := l.op == .dcbz
  hashst := l.op == .store && l.hash
  hashcmp := l.op == .load && l.hash
  readSpr := l.op == .mfspr
  writeSpr := l.op == .mtspr
  mmuOp := l.op == .tlbie || l.op == .fetchFailed ||
    l.op == .mtspr && !((sprn l).getLsbD 1 || (sprn l).getLsbD 2)
  instrFault := l.op == .fetchFailed
  doUpdate := doUpdateIn l
  mode32bit := l.mode32bit
  prefixed := l.prefixed
  addr := addrIn l addr0
  byteSel := (longSel l addr0).extractLsb' 0 8
  secondBytes := (longSel l addr0).extractLsb' 8 8
  storeData := if hasFpu && l.is32bit then (storeSpData l.data).setWidth 64 else l.data
  instrTag := l.instrTag
  writeReg := l.writeReg
  length := l.length
  eltLength := l.length
  byteReverse := l.byteReverse
  brevMask := if l.byteReverse then l.length.extractLsb' 0 3 - 1 else 0
  signExtend := l.signExtend
  update := l.update
  xerc := l.xerc
  reserve := l.reserve
  atomicQw := isQuad l && !misaligned l addr0
  atomicFirst := !misaligned l addr0 && !l.second
  atomicLast := !misaligned l addr0 && (l.second || !l.rpt)
  rc := l.rc
  nc := l.ci || ((addrIn l addr0).extractLsb' 28 4 = 0xc && !l.virtMode)
  virtMode := l.virtMode
  privMode := l.privMode
  loadSp := l.op == .load && !doUpdateIn l && hasFpu && l.is32bit
  sprsel := sprselIn l
  ric := l.insn.extractLsb' 18 2
  isSlbia := l.op == .tlbie && l.insn.getLsbD 7
  alignIntr := alignIntrIn l addr0
  dawrIntr := false
  dwordIndex := false
  twoDwords := (longSel l addr0).extractLsb' 8 8 != 0
  incomplete := dcReqIn l addr0 && (longSel l addr0).extractLsb' 8 8 != 0
  eaValid := l.valid && !(l.op == .sync || l.op == .mfspr || l.op == .mtspr)
  hashAddr := hashAddrIn l

end

end Microwatt.Loadstore1
