import Mathlib.Tactic

/-!
# The wishbone bus and the caches' memory interfaces

The records of `wishbone_types.vhdl` and the interface records of `common.vhdl`
that connect loadstore1, the MMU and the dcache.  A `std_ulogic` is a `Bool`
(the metavalues `'U'`, `'X'` of simulation are not modelled), a
`std_ulogic_vector` is a `BitVec` of the same width.
-/

namespace Microwatt

/-- `wishbone_addr_type`: the bus address counts doublewords, 29 bits of it. -/
abbrev WbAddr := BitVec 29

/-- `wishbone_data_type`. -/
abbrev Dword := BitVec 64

/-- `wishbone_sel_type`: one select per byte of a doubleword. -/
abbrev ByteSel := BitVec 8

/-- `real_addr_t`, with `REAL_ADDR_BITS = 56`. -/
abbrev RealAddr := BitVec 56

/-- `wishbone_master_out`. -/
structure WishboneMasterOut where
  adr : WbAddr
  dat : Dword
  sel : ByteSel
  cyc : Bool
  stb : Bool
  we : Bool
deriving DecidableEq

/-- `wishbone_slave_out`. -/
structure WishboneSlaveOut where
  dat : Dword
  ack : Bool
  stall : Bool
deriving DecidableEq

/-- `addr_to_wb`: the bus carries bits 31 to 3 of a real address. -/
def addrToWb (addr : RealAddr) : WbAddr :=
  addr.extractLsb' 3 29

/-- `wb_to_addr`. -/
def wbToAddr (wbAddr : WbAddr) : BitVec 64 :=
  0#32 ++ wbAddr ++ 0#3

/-- `addr_to_real`. -/
def addrToReal (addr : BitVec 64) : RealAddr :=
  addr.extractLsb' 0 56

/-- `Loadstore1ToDcacheType`.  `data` and `dawrMatch` are valid in the cycle
after the one with `valid`. -/
structure Loadstore1ToDcache where
  valid : Bool
  hold : Bool
  load : Bool
  dcbz : Bool
  flush : Bool
  touch : Bool
  sync : Bool
  nc : Bool
  reserve : Bool
  atomicQw : Bool
  atomicFirst : Bool
  atomicLast : Bool
  virtMode : Bool
  privMode : Bool
  tlbProbe : Bool
  addr : BitVec 64
  data : Dword
  byteSel : ByteSel
  dawrMatch : Bool
deriving DecidableEq

/-- `Loadstore1ToDcacheInit`. -/
def Loadstore1ToDcache.init : Loadstore1ToDcache where
  valid := false
  hold := false
  load := false
  dcbz := false
  flush := false
  touch := false
  sync := false
  nc := false
  reserve := false
  atomicQw := false
  atomicFirst := false
  atomicLast := false
  virtMode := false
  privMode := false
  tlbProbe := false
  addr := 0
  data := 0
  byteSel := 0
  dawrMatch := false

/-- `DcacheToLoadstore1Type`. -/
structure DcacheToLoadstore1 where
  valid : Bool
  data : Dword
  storeDone : Bool
  error : Bool
  cacheParadox : Bool
  reserveNc : Bool
deriving DecidableEq

/-- `MmuToDcacheType`. -/
structure MmuToDcache where
  valid : Bool
  tlbie : Bool
  doall : Bool
  tlbld : Bool
  addr : BitVec 64
  pte : BitVec 64
deriving DecidableEq

/-- `DcacheToMmuType`. -/
structure DcacheToMmu where
  stall : Bool
  done : Bool
  err : Bool
  data : Dword
deriving DecidableEq

end Microwatt
