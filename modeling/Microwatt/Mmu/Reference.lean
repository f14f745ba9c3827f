import Microwatt.Mmu.Step
import Microwatt.Lib.Bits

/-!
# The radix walk

What a walk should find, as a recursion over the levels of the tree.  `mem` gives the
doubleword that a read at an address delivers; table entries are big-endian.  At each
level `shift` is the number of address bits above bit 12 that are still to be
translated; the next `nls` of them, from the top, index the table.
-/

namespace Microwatt.Mmu

/-- Memory as the dcache delivers it: a doubleword for each address. -/
abbrev Memory := BitVec 64 → BitVec 64

/-- Why a walk fails. -/
inductive Fault where
  | invalid
  | badtree
  | segment
  | permission
  | refChange
deriving DecidableEq

/-- A data access. -/
structure Access where
  ea : BitVec 64
  store : Bool
  priv : Bool

/-- The table entry at address `a`. -/
def entryAt (mem : Memory) (a : Nat) : BitVec 64 :=
  byteSwap (mem (BitVec.ofNat 64 a))

/-- The base address in an entry of the process table or of the tree. -/
def nextBase (e : BitVec 64) : Nat :=
  (e.extractLsb' 8 48).toNat * 2 ^ 8

/-- The size of the table that an entry points to, as a power of two. -/
def nextSize (e : BitVec 64) : Nat :=
  (e.extractLsb' 0 5).toNat

/-- The radix tree size, less 31. -/
def treeSize (e : BitVec 64) : Nat :=
  (e.extractLsb' 61 2).toNat * 8 + (e.extractLsb' 5 3).toNat

/-- What the leaf entry `e` says about the access: permission first, then the
reference and change bits. -/
def leafCheck (a : Access) (e : BitVec 64) : Option Fault :=
  if !((a.priv || !e.getLsbD 3) && (e.getLsbD 1 || (e.getLsbD 2 && !a.store))) then
    some .permission
  else if !(e.getLsbD 8 && (e.getLsbD 7 || !a.store)) then some .refChange
  else none

/-- The result of a walk that ends at the leaf entry `e`. -/
def leafResult (a : Access) (e : BitVec 64) (shift : Nat) : Except Fault (BitVec 64 × Nat) :=
  match leafCheck a e with
  | some f => .error f
  | none => .ok (e, shift)

/-- Walk down from a table of `2 ^ nls` entries at `base`.  The result is the leaf
entry and the number of address bits above bit 12 that lie within its page. -/
def walkTree (mem : Memory) (a : Access) (base nls shift : Nat) :
    Except Fault (BitVec 64 × Nat) :=
  if nls < 5 ∨ 16 < nls ∨ shift < nls then .error .badtree
  else
    let index := a.ea.toNat / 2 ^ (12 + (shift - nls)) % 2 ^ nls
    let e := entryAt mem (Bits.insertLow base (nls + 3) (8 * index))
    if !e.getLsbD 63 then .error .invalid
    else if e.getLsbD 62 then leafResult a e (shift - nls)
    else walkTree mem a (nextBase e) (nextSize e) (shift - nls)
termination_by shift
decreasing_by omega

/-- The entry of the partition table: the base and size of the process table. -/
def partEntry (mem : Memory) (ptcr : BitVec 64) : BitVec 64 :=
  entryAt mem ((ptcr.extractLsb' 12 44).toNat * 2 ^ 12 + 8)

/-- The entry for `pid` of the process table that `prtb` describes.  A table for more
than all the PIDs is one for all of them. -/
def procEntry (mem : Memory) (prtb : BitVec 64) (pid : BitVec 32) : BitVec 64 :=
  entryAt mem (Bits.insertLow (prtb.extractLsb' 0 56).toNat
    (12 + min (prtb.extractLsb' 0 5).toNat 24) (16 * pid.toNat))

/-- The address lies in quadrant 0 or 3 and within the tree. -/
def inSegment (ea : BitVec 64) (rts : Nat) : Prop :=
  ea.getLsbD 63 = ea.getLsbD 62 ∧ ea.toNat % 2 ^ 62 / 2 ^ (31 + rts) = 0

instance (ea : BitVec 64) (rts : Nat) : Decidable (inSegment ea rts) :=
  inferInstanceAs (Decidable (_ ∧ _))

/-- The walk from the root of the tree that `root` describes.  An index of no bits
disables translation. -/
def walkRoot (mem : Memory) (a : Access) (root : BitVec 64) : Except Fault (BitVec 64 × Nat) :=
  if nextSize root = 0 then .error .invalid
  else if ¬inSegment a.ea (treeSize root) then .error .segment
  else walkTree mem a (nextBase root) (nextSize root) (treeSize root + 19)

/-- The whole translation: the process table entry is that of the PID, or that of
process 0 for an address in the upper half. -/
def walk (mem : Memory) (ptcr : BitVec 64) (pid : BitVec 32) (a : Access) :
    Except Fault (BitVec 64 × Nat) :=
  walkRoot mem a
    (procEntry mem (partEntry mem ptcr) (if a.ea.getLsbD 63 then 0 else pid))

/-- The real address in the page of the leaf entry `e`, with `shift` address bits above
bit 12 within the page. -/
def realAddr (e : BitVec 64) (shift : Nat) (ea : BitVec 64) : RealAddr :=
  BitVec.ofNat 56 (Bits.insertLow e.toNat (12 + shift) ea.toNat)

end Microwatt.Mmu
