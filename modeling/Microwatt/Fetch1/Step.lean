import Microwatt.Wishbone

/-!
# Instruction fetch

`fetch1.vhdl`: the address of the next instruction, its translation by a two-entry ERAT in
front of a direct-mapped ITLB, and the branch target cache.
-/

namespace Microwatt.Fetch1

/-- The generics of fetch1.  The three slices that the index of the ITLB is hashed from lie
within the effective address. -/
structure Geometry where
  hasBtc : Bool
  tlbBits : Nat
  hash_le : 12 + 3 * tlbBits ≤ 64

/-- The default generics: a BTC and 64 entries in the ITLB. -/
def Geometry.default : Geometry where
  hasBtc := true
  tlbBits := 6
  hash_le := by decide

/-- An effective page number. -/
abbrev Epn := BitVec 52

/-- A real page number. -/
abbrev Rpn := BitVec 44

/-- `Fetch1ToIcacheType`, the registered part. -/
structure Fetch1ToIcache where
  req : Bool
  fetchFail : Bool
  virtMode : Bool
  privMode : Bool
  bigEndian : Bool
  stopMark : Bool
  predicted : Bool
  predNtaken : Bool
  nia : BitVec 64
  rpn : Rpn

/-- `reg_internal_t`. -/
structure RegInternal where
  mode32bit : Bool
  rdIsNiap4 : Bool
  tlbcheck : Bool
  tlbstall : Bool
  nextNia : BitVec 64

/-- One entry of `erat_t`. -/
structure EratEntry where
  epn : Epn
  rpn : Rpn
  priv : Bool
  valid : Bool

/-- `erat_t`. -/
structure Erat where
  entry0 : EratEntry
  entry1 : EratEntry
  mru : Bool

/-- An entry of the branch target cache, the word of `btc_memory` taken apart: the branch was
taken, `MSR[IR]`, the tag and the target. -/
structure BtcEntry where
  taken : Bool
  virtMode : Bool
  tag : BitVec 52
  target : BitVec 62

/-- `MmuToITLBType`. -/
structure MmuToItlb where
  tlbld : Bool
  tlbie : Bool
  doall : Bool
  addr : BitVec 64
  pte : BitVec 64

/-- `WritebackToFetch1Type`. -/
structure WritebackToFetch1 where
  redirect : Bool
  virtMode : Bool
  privMode : Bool
  bigEndian : Bool
  mode32bit : Bool
  redirectNia : BitVec 64
  brNia : BitVec 64
  brLast : Bool
  brTaken : Bool
  interrupt : Bool
  altIntr : Bool
  intrVec : BitVec 64

/-- `Decode1ToFetch1Type`. -/
structure Decode1ToFetch1 where
  redirect : Bool
  redirectNia : BitVec 64

variable (g : Geometry)

/-- The arrays of the ITLB and the entry read from them. -/
structure Itlb where
  valids : BitVec g.tlbBits → Bool
  tags : BitVec g.tlbBits → BitVec (52 - g.tlbBits)
  ptes : BitVec g.tlbBits → BitVec 64
  valid : Bool
  ttag : BitVec (52 - g.tlbBits)
  pte : BitVec 64

/-- The branch target cache and the entry read from it. -/
structure Btc where
  memory : BitVec 10 → BtcEntry
  valids : BitVec 10 → Bool
  rdData : BtcEntry
  rdValid : Bool

/-- All registers of fetch1. -/
structure State where
  r : Fetch1ToIcache
  rInt : RegInternal
  erat : Erat
  itlb : Itlb g
  btc : Btc

/-- The inputs of one cycle, outside reset. -/
structure Input where
  stallIn : Bool
  invalBtc : Bool
  stopIn : Bool
  mIn : MmuToItlb
  wIn : WritebackToFetch1
  dIn : Decode1ToFetch1

variable {g}

/-! ## Addresses -/

/-- The page of an effective address. -/
def epnOf (addr : BitVec 64) : Epn :=
  addr.extractLsb' 12 52

/-- The page number in a page table entry. -/
def rpnOf (pte : BitVec 64) : Rpn :=
  pte.extractLsb' 12 44

/-- `hash_ea`. -/
def hashEa (addr : BitVec 64) : BitVec g.tlbBits :=
  addr.extractLsb' 12 g.tlbBits ^^^ addr.extractLsb' (12 + g.tlbBits) g.tlbBits ^^^
    addr.extractLsb' (12 + 2 * g.tlbBits) g.tlbBits

/-- The tag of an address in the ITLB. -/
def tlbTag (addr : BitVec 64) : BitVec (52 - g.tlbBits) :=
  addr.extractLsb' (12 + g.tlbBits) (52 - g.tlbBits)

/-- An instruction address: the low two bits are zero. -/
def align4 (addr : BitVec 64) : BitVec 64 :=
  addr.extractLsb' 2 62 ++ 0#2

variable (s : State g) (i : Input)

/-- `itlb_hit`. -/
def itlbHit : Bool :=
  s.itlb.ttag == tlbTag s.r.nia && s.itlb.valid

/-! ## `comb` -/

/-- `advance_nia`. -/
def advanceNia : Bool :=
  i.wIn.interrupt || i.wIn.redirect || i.dIn.redirect ||
    (!s.r.stopMark && !(s.r.req && i.stallIn))

/-- `v.virt_mode` before interrupts. -/
def redirVirt : Bool :=
  if i.wIn.redirect then i.wIn.virtMode else s.r.virtMode

/-- `v.priv_mode` before interrupts. -/
def redirPriv : Bool :=
  if i.wIn.redirect then i.wIn.privMode else s.r.privMode

/-- `m32`. -/
def m32 : Bool :=
  if i.wIn.redirect then i.wIn.mode32bit else s.rInt.mode32bit

/-- `next_nia`. -/
def nextNia : BitVec 64 :=
  let nia :=
    if i.wIn.redirect then align4 i.wIn.redirectNia
    else if i.dIn.redirect then align4 i.dIn.redirectNia
    -- this case is needed so that the correct icache tags are read
    else if s.rInt.tlbstall then s.r.nia
    else s.rInt.nextNia
  if m32 s i then 0#32 ++ nia.extractLsb' 0 32 else nia

/-- An entry of the ERAT translates the page of `nia`. -/
def EratEntry.hits (e : EratEntry) (nia : BitVec 64) : Bool :=
  epnOf nia == e.epn && e.valid

/-- `ehit`. -/
def ehit : Bool :=
  s.erat.entry1.hits (nextNia s i) || s.erat.entry0.hits (nextNia s i)

/-- `esel`. -/
def esel : Bool :=
  s.erat.entry1.hits (nextNia s i)

/-- `v.rpn`. -/
def nextRpn : Rpn :=
  if !redirVirt s i then (nextNia s i).extractLsb' 12 44
  else if esel s i then s.erat.entry1.rpn
  else s.erat.entry0.rpn

/-- `eaa_priv`. -/
def eaaPriv : Bool :=
  if !redirVirt s i then true
  else if esel s i then s.erat.entry1.priv
  else s.erat.entry0.priv

/-- `v.fetch_fail` up to the translation: an ITLB miss sets it, a redirect clears it. -/
def lookupFail : Bool :=
  if i.wIn.redirect || i.dIn.redirect then false
  else (s.rInt.tlbcheck && !itlbHit s) || s.r.fetchFail

/-- A lookup in the ITLB has to be made before the request can be sent. -/
def startCheck : Bool :=
  advanceNia s i && !ehit s i && redirVirt s i && !s.rInt.tlbcheck && !lookupFail s i

/-- `v.fetch_fail` before interrupts. -/
def nextFail : Bool :=
  if ehit s i || !redirVirt s i then eaaPriv s i && !redirPriv s i else lookupFail s i

/-- `v.fetch_fail`. -/
def fetchFail : Bool :=
  !i.wIn.interrupt && nextFail s i

/-- `v_int.tlbstall`. -/
def tlbstall : Bool :=
  fetchFail s i || (!i.wIn.interrupt && (startCheck s i || s.rInt.tlbcheck))

/-- `v.req`. -/
def nextReq : Bool :=
  !i.stopIn && !i.wIn.interrupt && !tlbstall s i

/-- The entry of the BTC is for the next instruction. -/
def btcHit : Bool :=
  nextReq s i && !i.wIn.redirect && !i.dIn.redirect && !s.rInt.tlbstall &&
    s.btc.rdValid && s.rInt.rdIsNiap4 && s.btc.rdData.virtMode == s.r.virtMode &&
    s.btc.rdData.tag == s.rInt.nextNia.extractLsb' 12 52

/-- `r_next`; `stop_mark` is driven apart. -/
def rNext : Fetch1ToIcache where
  req := nextReq s i
  fetchFail := fetchFail s i
  virtMode := if i.wIn.interrupt then i.wIn.altIntr else redirVirt s i
  privMode := i.wIn.interrupt || redirPriv s i
  bigEndian :=
    !i.wIn.interrupt && if i.wIn.redirect then i.wIn.bigEndian else s.r.bigEndian
  stopMark := s.r.stopMark
  predicted := btcHit s i && s.btc.rdData.taken
  predNtaken := btcHit s i && !s.btc.rdData.taken
  nia := nextNia s i
  rpn := nextRpn s i

/-- `r_next_int`. -/
def rNextInt : RegInternal where
  mode32bit := !i.wIn.interrupt && m32 s i
  rdIsNiap4 := !i.wIn.interrupt && !(btcHit s i && s.btc.rdData.taken)
  tlbcheck := !i.wIn.interrupt && startCheck s i
  tlbstall := tlbstall s i
  nextNia :=
    if btcHit s i && s.btc.rdData.taken then s.btc.rdData.target ++ 0#2
    else if i.wIn.interrupt then align4 i.wIn.intrVec
    else nextNia s i + 4

/-- `btc_rd_addr`. -/
def btcRdAddr : BitVec 10 :=
  (nextNia s i + 4).extractLsb' 2 10

/-! ## The clocked processes -/

/-- `regs`, for `r`. -/
def regs : Fetch1ToIcache :=
  let r := if advanceNia s i then rNext s i else s.r
  -- always send the up-to-date stop mark and req
  { r with stopMark := i.stopIn, req := (rNext s i).req, fetchFail := (rNext s i).fetchFail }

/-- `regs`, for `r_int`. -/
def regsInt : RegInternal :=
  let r := if advanceNia s i then rNextInt s i else s.rInt
  { r with tlbcheck := (rNextInt s i).tlbcheck, tlbstall := (rNextInt s i).tlbstall }

/-- The entry that a lookup in the ITLB makes. -/
def itlbEntry : EratEntry where
  epn := epnOf s.r.nia
  rpn := rpnOf s.itlb.pte
  priv := s.itlb.pte.getLsbD 3
  valid := true

/-- `erat_sync`. -/
def eratSync : Erat :=
  if i.mIn.tlbie then
    { entry0 := { s.erat.entry0 with valid := false }
      entry1 := { s.erat.entry1 with valid := false }
      mru := false }
  else
    let e := if ehit s i && advanceNia s i then { s.erat with mru := esel s i } else s.erat
    if i.mIn.tlbld then
      { entry0 :=
          { epn := epnOf i.mIn.addr
            rpn := rpnOf i.mIn.pte
            priv := i.mIn.pte.getLsbD 3
            valid := true }
        entry1 := { s.erat.entry1 with valid := false }
        mru := false }
    else if s.rInt.tlbcheck && itlbHit s then
      if !s.erat.mru then { e with entry1 := itlbEntry s, mru := !s.erat.mru }
      else { e with entry0 := itlbEntry s, mru := !s.erat.mru }
    else e

/-- `itlb_read` and `itlb_update`.  A read at the edge of a write gives the old contents. -/
def itlbNext : Itlb g :=
  let ix : BitVec g.tlbBits := hashEa i.mIn.addr
  let clear := i.mIn.tlbie && i.mIn.doall
  let load := !i.mIn.tlbie && i.mIn.tlbld
  { valids := fun k =>
      if clear then false
      else if i.mIn.tlbie ∧ k = ix then false
      else if load ∧ k = ix then true
      else s.itlb.valids k
    tags := fun k => if load ∧ k = ix then tlbTag i.mIn.addr else s.itlb.tags k
    ptes := fun k => if load ∧ k = ix then i.mIn.pte else s.itlb.ptes k
    valid := if advanceNia s i then s.itlb.valids (hashEa (nextNia s i)) else s.itlb.valid
    ttag := if advanceNia s i then s.itlb.tags (hashEa (nextNia s i)) else s.itlb.ttag
    pte := if advanceNia s i then s.itlb.ptes (hashEa (nextNia s i)) else s.itlb.pte }

/-- `btc_wr_data`. -/
def btcWrData : BtcEntry where
  taken := i.wIn.brTaken
  virtMode := s.r.virtMode
  tag := i.wIn.brNia.extractLsb' 12 52
  target := i.wIn.redirectNia.extractLsb' 2 62

/-- `btc_ram`. -/
def btcNext : Btc :=
  if g.hasBtc then
    { memory := fun a =>
        if i.wIn.brLast ∧ a = i.wIn.brNia.extractLsb' 2 10 then btcWrData s i else s.btc.memory a
      valids := fun a =>
        if i.invalBtc then false
        else if i.wIn.brLast ∧ a = i.wIn.brNia.extractLsb' 2 10 then true
        else s.btc.valids a
      rdData := if advanceNia s i then s.btc.memory (btcRdAddr s i) else s.btc.rdData
      rdValid := if advanceNia s i then s.btc.valids (btcRdAddr s i) else s.btc.rdValid }
  else s.btc

/-- A rising edge outside reset. -/
def step : State g where
  r := regs s i
  rInt := regsInt s i
  erat := eratSync s i
  itlb := itlbNext s i
  btc := btcNext s i

/-- What a reset leaves.  The core starts in real mode with nothing translated. -/
structure AfterReset (s : State g) : Prop where
  req : s.r.req = false
  fetchFail : s.r.fetchFail = false
  virtMode : s.r.virtMode = false
  privMode : s.r.privMode = true
  bigEndian : s.r.bigEndian = false
  mode32bit : s.rInt.mode32bit = false
  rdIsNiap4 : s.rInt.rdIsNiap4 = false
  tlbcheck : s.rInt.tlbcheck = false
  tlbstall : s.rInt.tlbstall = false
  erat0 : s.erat.entry0.valid = false
  erat1 : s.erat.entry1.valid = false
  itlbValids : s.itlb.valids = fun _ => false
  btcValids : g.hasBtc = true → s.btc.valids = fun _ => false
  btcRdValid : g.hasBtc = false → s.btc.rdValid = false

/-! ## Fixed inputs -/

/-- fetch1 after a reset, with all memories cleared. -/
def State.cold : State Geometry.default where
  r := ⟨false, false, false, true, false, false, false, false, 0, 0⟩
  rInt := ⟨false, false, false, false, 0⟩
  erat := ⟨⟨0, 0, false, false⟩, ⟨0, 0, false, false⟩, false⟩
  itlb := ⟨fun _ => false, fun _ => 0, fun _ => 0, false, 0, 0⟩
  btc := ⟨fun _ => ⟨false, false, 0, 0⟩, fun _ => false, ⟨false, false, 0, 0⟩, false⟩

/-- A cycle in which nothing comes in. -/
def Input.idle : Input where
  stallIn := false
  invalBtc := false
  stopIn := false
  mIn := ⟨false, false, false, 0, 0⟩
  wIn := ⟨false, false, false, false, false, 0, 0, false, false, false, false, 0⟩
  dIn := ⟨false, 0⟩

end Microwatt.Fetch1
