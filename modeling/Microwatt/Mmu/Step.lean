import Microwatt.Wishbone

/-!
# The MMU

`mmu.vhdl`: a state machine that walks a radix tree in memory, one read through the
dcache at a time.  The register `shift` has three meanings in turn: the size of the
tree for the segment check, the size of the process table for the address of an entry
of it, and the number of address bits that are still to be translated.
-/

namespace Microwatt.Mmu

/-- `Loadstore1ToMmuType`. -/
structure Loadstore1ToMmu where
  valid : Bool
  tlbie : Bool
  slbia : Bool
  mtspr : Bool
  iside : Bool
  load : Bool
  priv : Bool
  ric : BitVec 2
  sprnt : Bool
  addr : BitVec 64
  rs : BitVec 64

/-- `state_t`. -/
inductive StateT where
  | idle
  | doTlbie
  | partTblRead
  | partTblWait
  | partTblDone
  | procTblRead
  | procTblWait
  | segmentCheck
  | radixLookup
  | radixReadWait
  | radixLoadTlb
  | radixFinish
deriving DecidableEq

/-- The causes that a walk can fail for: `invalid`, `badtree`, `segerror`, `perm_err`
and `rc_error`. -/
structure Causes where
  invalid : Bool
  badtree : Bool
  segerror : Bool
  permErr : Bool
  rcError : Bool
deriving DecidableEq

def Causes.none : Causes := ⟨false, false, false, false, false⟩

def Causes.any (c : Causes) : Bool :=
  c.invalid || c.badtree || c.segerror || c.permErr || c.rcError

/-- `reg_stage_t`. -/
structure State where
  valid : Bool
  iside : Bool
  store : Bool
  priv : Bool
  addr : BitVec 64
  invalAll : Bool
  ptcr : BitVec 64
  pid : BitVec 32
  state : StateT
  done : Bool
  err : Bool
  prtbl : BitVec 64
  ptbValid : Bool
  pgtbl0 : BitVec 64
  pt0Valid : Bool
  pgtbl3 : BitVec 64
  pt3Valid : Bool
  shift : BitVec 6
  maskSize : BitVec 5
  pgbase : BitVec 56
  pde : BitVec 64
  causes : Causes

/-- The inputs of one cycle, outside reset. -/
structure Input where
  lIn : Loadstore1ToMmu
  dIn : DcacheToMmu

/-! ## The shifter and the masks -/

/-- The first stage of `addrshifter`, by bits 5 and 4 of the shift count. -/
def sh1 (addr : BitVec 64) : Nat → BitVec 31
  | 0 => addr.extractLsb' 12 31
  | 1 => addr.extractLsb' 28 31
  | _ => (addr.extractLsb' 44 18).setWidth 31

/-- The second stage, by bits 3 and 2. -/
def sh2 (x : BitVec 31) : Nat → BitVec 19
  | 0 => x.extractLsb' 0 19
  | 1 => x.extractLsb' 4 19
  | 2 => x.extractLsb' 8 19
  | _ => x.extractLsb' 12 19

/-- The last stage, by bits 1 and 0. -/
def sh3 (x : BitVec 19) : Nat → BitVec 16
  | 0 => x.extractLsb' 0 16
  | 1 => x.extractLsb' 1 16
  | 2 => x.extractLsb' 2 16
  | _ => x.extractLsb' 3 16

/-- `addrshifter`: address bits 61 to 12 shifted right. -/
def addrsh (s : State) : BitVec 16 :=
  sh3 (sh2 (sh1 s.addr (s.shift.extractLsb' 4 2).toNat) (s.shift.extractLsb' 2 2).toNat)
    (s.shift.extractLsb' 0 2).toNat

/-- `addrmaskgen`. -/
def mask (s : State) : BitVec 16 :=
  (List.range 16).foldl
    (fun m i => if i < 5 || i < s.maskSize.toNat then m ||| (1#16 <<< i) else m) 0

/-- `finalmaskgen`. -/
def finalmask (s : State) : BitVec 44 :=
  (List.range 44).foldl (fun m i => if i < s.shift.toNat then m ||| (1#44 <<< i) else m) 0

/-! ## The addresses -/

/-- Radix tree data structures in memory are big-endian. -/
def byteSwap (d : BitVec 64) : BitVec 64 :=
  d.extractLsb' 0 8 ++ d.extractLsb' 8 8 ++ d.extractLsb' 16 8 ++ d.extractLsb' 24 8 ++
    d.extractLsb' 32 8 ++ d.extractLsb' 40 8 ++ d.extractLsb' 48 8 ++ d.extractLsb' 56 8

/-- `effpid`. -/
def effpid (s : State) : BitVec 32 :=
  if s.addr.getLsbD 63 then 0 else s.pid

/-- The address of the entry of the partition table. -/
def parttblAddr (s : State) : BitVec 64 :=
  0#8 ++ s.ptcr.extractLsb' 12 44 ++ 0x008#12

/-- `prtable_addr`. -/
def prtableAddr (s : State) : BitVec 64 :=
  0#8 ++ s.prtbl.extractLsb' 36 20 ++
    ((s.prtbl.extractLsb' 12 24 &&& ~~~((finalmask s).extractLsb' 0 24)) |||
      ((effpid s).extractLsb' 8 24 &&& (finalmask s).extractLsb' 0 24)) ++
    (effpid s).extractLsb' 0 8 ++ 0#4

/-- `pgtable_addr`. -/
def pgtableAddr (s : State) : BitVec 64 :=
  0#8 ++ s.pgbase.extractLsb' 19 37 ++
    ((s.pgbase.extractLsb' 3 16 &&& ~~~mask s) ||| (addrsh s &&& mask s)) ++ 0#3

/-- `pte`. -/
def pte (s : State) : BitVec 64 :=
  0#8 ++
    ((s.pde.extractLsb' 12 44 &&& ~~~finalmask s) ||| (s.addr.extractLsb' 12 44 &&& finalmask s)) ++
    s.pde.extractLsb' 0 12

/-! ## Fields of the table entries -/

/-- `rts`, the radix tree size less 31. -/
def rtsOf (pgtbl : BitVec 64) : BitVec 6 :=
  0#1 ++ pgtbl.extractLsb' 61 2 ++ pgtbl.extractLsb' 5 3

/-- `mbits`, the number of address bits that index the next level. -/
def mbitsOf (d : BitVec 64) : BitVec 6 :=
  0#1 ++ d.extractLsb' 0 5

/-- The base of the next level. -/
def baseOf (d : BitVec 64) : BitVec 56 :=
  d.extractLsb' 8 48 ++ 0#8

/-- `perm_ok` for a leaf entry. -/
def permOk (s : State) (data : BitVec 64) : Bool :=
  (s.priv || !data.getLsbD 3) &&
    if !s.iside then data.getLsbD 1 || (data.getLsbD 2 && !s.store)
    else data.getLsbD 0 && !data.getLsbD 5

/-- `rc_ok` for a leaf entry. -/
def rcOk (s : State) (data : BitVec 64) : Bool :=
  data.getLsbD 8 && (data.getLsbD 7 || !s.store)

/-! ## `mmu_1`, state by state -/

/-- Fail with `c`. -/
def fail (v : State) (c : Causes) : State :=
  { v with state := .radixFinish, causes := c }

/-- Take a tree whose root is described by `pgtbl`: `shift` is set to its size for the
segment check. -/
def setRoot (v : State) (pgtbl : BitVec 64) : State :=
  { v with
    shift := rtsOf pgtbl
    maskSize := (mbitsOf pgtbl).setWidth 5
    pgbase := baseOf pgtbl }

/-- `IDLE` with a request for a translation. -/
def idleWalk (s : State) (l : Loadstore1ToMmu) (v : State) : State :=
  let pgtbl := if l.addr.getLsbD 63 then s.pgtbl3 else s.pgtbl0
  let ptValid := if l.addr.getLsbD 63 then s.pt3Valid else s.pt0Valid
  let v := { v with valid := true }
  if !s.ptbValid then { v with state := .partTblRead }
  else if !ptValid then
    { v with shift := 0#1 ++ s.prtbl.extractLsb' 0 5, state := .procTblRead }
  else if mbitsOf pgtbl == 0 then fail v { Causes.none with invalid := true }
  else { v with state := .segmentCheck }

/-- `IDLE`, the part for requests. -/
def idleRequest (s : State) (l : Loadstore1ToMmu) (v : State) : State :=
  if l.valid then
    let v :=
      { v with
        addr := l.addr
        iside := l.iside
        store := !(l.load || l.iside)
        priv := l.priv }
    if l.tlbie then
      { v with
        -- tlbie with RB[IS] /= 0 or RB[AP] /= 0, or slbia
        invalAll := l.slbia || l.addr.getLsbD 11 || l.addr.getLsbD 10 || l.addr.getLsbD 7 ||
          l.addr.getLsbD 6 || l.addr.getLsbD 5
        -- RIC = 2 or 3 flushes the process table caches
        pt0Valid := !l.ric.getLsbD 1 && v.pt0Valid
        pt3Valid := !l.ric.getLsbD 1 && v.pt3Valid
        ptbValid := !l.ric.getLsbD 1 && v.ptbValid
        state := .doTlbie }
    else idleWalk s l v
  else v

/-- `IDLE`, the part for mtspr. -/
def idleMtspr (l : Loadstore1ToMmu) (v : State) : State :=
  if l.mtspr then
    let v :=
      if !l.sprnt then { v with pid := l.rs.extractLsb' 0 32 }
      else { v with ptcr := l.rs, pt3Valid := false, ptbValid := false }
    { v with pt0Valid := false, invalAll := true, state := .doTlbie }
  else v

/-- State `IDLE`. -/
def idle (s : State) (l : Loadstore1ToMmu) (v : State) : State :=
  let v := setRoot v (if l.addr.getLsbD 63 then s.pgtbl3 else s.pgtbl0)
  idleMtspr l (idleRequest s l v)

/-- State `PROC_TBL_WAIT`. -/
def procTblWait (s : State) (d : DcacheToMmu) (v : State) : State :=
  let data := byteSwap d.data
  let v :=
    if d.done then
      let v :=
        if s.addr.getLsbD 63 then { v with pgtbl3 := data, pt3Valid := true }
        else { v with pgtbl0 := data, pt0Valid := true }
      let v := setRoot v data
      if mbitsOf data == 0 then fail v { Causes.none with invalid := true }
      else { v with state := .segmentCheck }
    else v
  if d.err then fail v { v.causes with badtree := true } else v

/-- State `SEGMENT_CHECK`. -/
def segmentCheck (s : State) (v : State) : State :=
  let mbits : BitVec 6 := s.maskSize.setWidth 6
  let v := { v with shift := s.shift + 19 - mbits }
  let nonzero :=
    s.addr.extractLsb' 31 31 &&& ~~~((finalmask s).extractLsb' 0 31) != 0
  if s.addr.getLsbD 63 != s.addr.getLsbD 62 || nonzero then
    fail v { Causes.none with segerror := true }
  else if mbits < 5 || mbits > 16 || mbits > s.shift + 19 then
    fail v { Causes.none with badtree := true }
  else { v with state := .radixLookup }

/-- `RADIX_READ_WAIT` with the entry that was read. -/
def radixEntry (s : State) (data : BitVec 64) (v : State) : State :=
  let v := { v with pde := data }
  -- the valid bit
  if data.getLsbD 63 then
    -- the leaf bit
    if data.getLsbD 62 then
      if permOk s data && rcOk s data then { v with state := .radixLoadTlb }
      else fail v { Causes.none with permErr := !permOk s data, rcError := permOk s data }
    else
      let mbits := mbitsOf data
      if mbits < 5 || mbits > 16 || mbits > s.shift then
        fail v { Causes.none with badtree := true }
      else
        { v with
          shift := v.shift - mbits
          maskSize := mbits.setWidth 5
          pgbase := baseOf data
          state := .radixLookup }
  else fail v { Causes.none with invalid := true }

/-- State `RADIX_READ_WAIT`. -/
def radixReadWait (s : State) (d : DcacheToMmu) (v : State) : State :=
  let v := if d.done then radixEntry s (byteSwap d.data) v else v
  if d.err then fail v { v.causes with badtree := true } else v

/-- The case statement of `mmu_1`. -/
def nextState (s : State) (i : Input) : State :=
  let v :=
    { s with valid := false, done := false, err := false, causes := .none, invalAll := false }
  match s.state with
  | .idle => idle s i.lIn v
  | .doTlbie => { v with state := .radixFinish }
  | .partTblRead => { v with state := .partTblWait }
  | .partTblWait =>
      if i.dIn.done then
        { v with prtbl := byteSwap i.dIn.data, ptbValid := true, state := .partTblDone }
      else v
  | .partTblDone => { v with shift := 0#1 ++ s.prtbl.extractLsb' 0 5, state := .procTblRead }
  | .procTblRead => { v with state := .procTblWait }
  | .procTblWait => procTblWait s i.dIn v
  | .segmentCheck => segmentCheck s v
  | .radixLookup => { v with state := .radixReadWait }
  | .radixReadWait => radixReadWait s i.dIn v
  | .radixLoadTlb => { v with state := .radixFinish }
  | .radixFinish => { v with state := .idle }

/-- A rising edge outside reset. -/
def step (s : State) (i : Input) : State :=
  let v := nextState s i
  if v.state == .radixFinish then { v with err := v.causes.any, done := !v.causes.any } else v

/-! ## Ports -/

/-- `d_out`. -/
def dOut (s : State) : MmuToDcache where
  valid := s.state == .partTblRead || s.state == .procTblRead || s.state == .radixLookup
  tlbie := s.state == .doTlbie
  doall := s.invalAll
  tlbld := s.state == .radixLoadTlb && !s.iside
  addr :=
    match s.state with
    | .doTlbie => s.addr
    | .radixLoadTlb => s.addr.extractLsb' 12 52 ++ 0#12
    | .partTblRead => parttblAddr s
    | .procTblRead => prtableAddr s
    | _ => pgtableAddr s
  pte := if s.state == .radixLoadTlb then pte s else 0

/-- What a reset leaves. -/
structure AfterReset (s : State) : Prop where
  state : s.state = .idle
  valid : s.valid = false
  ptbValid : s.ptbValid = false
  pt0Valid : s.pt0Valid = false
  pt3Valid : s.pt3Valid = false
  ptcr : s.ptcr = 0
  pid : s.pid = 0

/-! ## Fixed inputs -/

/-- The state after reset in which every other register is zero. -/
def State.cold : State where
  valid := false
  iside := false
  store := false
  priv := false
  addr := 0
  invalAll := false
  ptcr := 0
  pid := 0
  state := .idle
  done := false
  err := false
  prtbl := 0
  ptbValid := false
  pgtbl0 := 0
  pt0Valid := false
  pgtbl3 := 0
  pt3Valid := false
  shift := 0
  maskSize := 0
  pgbase := 0
  pde := 0
  causes := .none

theorem afterReset_cold : AfterReset State.cold := by
  constructor <;> rfl

/-- Nothing from loadstore1. -/
def Loadstore1ToMmu.idle : Loadstore1ToMmu where
  valid := false
  tlbie := false
  slbia := false
  mtspr := false
  iside := false
  load := false
  priv := false
  ric := 0
  sprnt := false
  addr := 0
  rs := 0

end Microwatt.Mmu
