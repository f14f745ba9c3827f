import Mathlib.Tactic

/-!
# Bit sorting and bit permutation

`bitsort.vhdl`: cfuged, pextd and pdepd take 64 cycles, one bit of the mask in each;
bperm takes eight.  There is no flush.
-/

namespace Microwatt

/-- The registers of `bit_sorter`. -/
structure Bitsort where
  val : BitVec 64
  st : Bool
  sd : Bool
  opr : BitVec 2
  bc : BitVec 6
  jl : BitVec 6
  jr : BitVec 6
  srMl : BitVec 64
  srMr : BitVec 64
  srVl : BitVec 64
  srVr : BitVec 64
  isBperm : Bool
  bpc : BitVec 3
  bpDone : Bool
  bpermRes : BitVec 7
  rsSr : BitVec 64
  rbBp : BitVec 64

/-- The ports of `bit_sorter`, outside reset. -/
structure BitsortInput where
  rs : BitVec 64
  rb : BitVec 64
  go : Bool
  opc : BitVec 2
  doBperm : Bool

namespace Bitsort

/-- `v` with bit `k` set to `b`. -/
def setBit (v : BitVec 64) (k : BitVec 6) (b : Bool) : BitVec 64 :=
  if b then v ||| (1#64 <<< k.toNat) else v &&& ~~~(1#64 <<< k.toNat)

/-- One bit of the sort. -/
def advance (u : Bitsort) : Bitsort :=
  let toLeft := !u.srMl.getLsbD 63 && u.opr.getLsbD 1
  let toRight := u.srMr.getLsbD 0
  let val := if toLeft then setBit u.val u.jl (u.srVl.getLsbD 63) else u.val
  let val :=
    if toRight then
      if u.opr == 0 then setBit val u.bc (u.srVr.getLsbD 0)
      else setBit val u.jr (u.srVr.getLsbD 0)
    else val
  { u with
    st := u.bc != 63
    sd := u.bc == 63
    bc := u.bc + 1
    val := val
    jl := if toLeft then u.jl - 1 else u.jl
    jr := if toRight then u.jr + 1 else u.jr
    srVl := u.srVl <<< 1
    srVr := if u.opr != 0 || toRight then u.srVr >>> 1 else u.srVr
    srMl := u.srMl <<< 1
    srMr := u.srMr >>> 1 }

/-- `bsort_r`. -/
def sort (u : Bitsort) (i : BitsortInput) : Bitsort :=
  if i.go then
    { u with
      sd := false
      st := true
      srMl := i.rb
      srMr := i.rb
      srVl := i.rs
      srVr := i.rs
      opr := i.opc
      val := 0
      bc := 0
      jl := 63
      jr := 0 }
  else if u.st then advance u
  else { u with sd := false }

/-- Bit 7 of `bperm_res`: the bit of RB that the low byte of `rs_sr` selects. -/
def bpermTop (u : Bitsort) : Bool :=
  u.rbBp.getLsbD (~~~(u.rsSr.extractLsb' 0 6)).toNat

/-- `bperm_r`. -/
def permute (u : Bitsort) (i : BitsortInput) : Bitsort :=
  if i.doBperm then
    { u with
      isBperm := true
      bpDone := false
      bpermRes := 0
      bpc := 0
      rsSr := i.rs
      rbBp := i.rb }
  else if u.bpDone then { u with isBperm := false, bpDone := false }
  else if u.isBperm then
    { u with
      bpermRes := BitVec.cons u.bpermTop (u.bpermRes.extractLsb' 1 6)
      rsSr := u.rsSr >>> 8
      bpDone := u.bpc == 6
      bpc := u.bpc + 1 }
  else u

/-- A rising edge outside reset.  The two processes drive different registers. -/
def step (u : Bitsort) (i : BitsortInput) : Bitsort :=
  permute (sort u i) i

/-- `result`. -/
def result (u : Bitsort) : BitVec 64 :=
  if u.isBperm then (BitVec.cons u.bpermTop u.bpermRes).setWidth 64 else u.val

/-- Forget the operation. -/
def forget (u : Bitsort) : Bitsort :=
  { u with st := false, sd := false, isBperm := false, bpDone := false }

end Bitsort

end Microwatt
