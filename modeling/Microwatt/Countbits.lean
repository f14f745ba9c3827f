import Microwatt.Helpers
import Microwatt.Lib.Run

/-!
# The bit counter

`countbits.vhdl`, with the reference functions of `ppc_fx_insns.vhdl` and `helpers.vhdl` that it has
to agree with.  Zeroes are counted on the side that a reversal of the operand chooses, ones by a
tree of adders whose first levels stand before a register.
-/

namespace Microwatt.Countbits

open Helpers

/-! ## The reference functions -/

section

variable {w : Nat}

/-- `ffs_32` and `ffs_64`: the number of the first set bit from the right, or the width. -/
def ffs (val : BitVec w) : Nat :=
  ((List.range w).find? fun i => val.getLsbD i).getD w

/-- `fls_32` and `fls_64`: the number of zeroes above the first set bit from the left, or the
width. -/
def fls (val : BitVec w) : Nat :=
  ((List.range w).find? fun i => val.getLsbD (w - 1 - i)).getD w

/-- The loop of `popcnt8`, `popcnt32` and `popcnt64` from bit `pos` down, with a count of `n`
bits. -/
def popcntLoop {n : Nat} (val : BitVec w) : Nat → BitVec n → BitVec n
  | 0, ret => ret
  | i + 1, ret => popcntLoop val i (ret + (BitVec.ofBool (val.getLsbD i)).setWidth n)

/-- `popcnt8`, `popcnt32` and `popcnt64`, with their counts of 4, 6 and 7 bits. -/
def popcnt (n : Nat) (val : BitVec w) : BitVec w :=
  (popcntLoop val w (0 : BitVec n)).setWidth w

end

def ppcCntlzw (rs : BitVec 64) : BitVec 64 := BitVec.ofNat 64 (fls (rs.extractLsb' 0 32))

def ppcCnttzw (rs : BitVec 64) : BitVec 64 := BitVec.ofNat 64 (ffs (rs.extractLsb' 0 32))

def ppcCntlzd (rs : BitVec 64) : BitVec 64 := BitVec.ofNat 64 (fls rs)

def ppcCnttzd (rs : BitVec 64) : BitVec 64 := BitVec.ofNat 64 (ffs rs)

/-- `ppc_popcntb`: byte `i` counts byte `i`. -/
def ppcPopcntb (rs : BitVec 64) : BitVec 64 :=
  let ret (i : Nat) := popcnt 4 (rs.extractLsb' (8 * i) 8)
  ret 7 ++ ret 6 ++ ret 5 ++ ret 4 ++ ret 3 ++ ret 2 ++ ret 1 ++ ret 0

/-- `ppc_popcntw`. -/
def ppcPopcntw (rs : BitVec 64) : BitVec 64 :=
  let ret (i : Nat) := popcnt 6 (rs.extractLsb' (32 * i) 32)
  ret 1 ++ ret 0

def ppcPopcntd (rs : BitVec 64) : BitVec 64 := popcnt 7 rs

/-! ## The unit -/

/-- The inputs of `bit_counter`. -/
structure BitCounterIn where
  rs : BitVec 64
  stall : Bool
  countRight : Bool
  doPopcnt : Bool
  is32bit : Bool
  datalen : BitVec 4

/-- Its registers. -/
structure BitCounter where
  inpR : BitVec 64
  sumR : BitVec 65
  dlenR : BitVec 4
  pcntR : Bool
  pc8R : Fin 8 → BitVec 4
  pc16R : Fin 4 → BitVec 5

/-- `inp`: what zeroes are counted in, from the right. -/
def inp (i : BitCounterIn) : BitVec 64 :=
  if !i.is32bit then
    if !i.countRight then i.rs.reverse else i.rs
  else
    0xFFFFFFFF#32 ++
      if !i.countRight then (i.rs.extractLsb' 0 32).reverse else i.rs.extractLsb' 0 32

/-- `sum`. -/
def sum (inp : BitVec 64) : BitVec 65 := (0#1 ++ ~~~inp) + 1

/-- `cntz`. -/
def cntz (s : BitCounter) : BitVec 64 :=
  let sum := s.sumR.extractLsb' 0 64
  let bitnumE := edgelocation (sum ||| s.inpR)
  let bitnumO := bitNumber (sum &&& s.inpR)
  0#57 ++ (s.sumR.extractLsb' 64 1 ++ (bitnumE.extractLsb' 2 4 ++ bitnumO.extractLsb' 0 2))

/-- The sum of two counts, one bit wider. -/
def addCounts {n : Nat} (a b : BitVec n) : BitVec (1 + n) := (0#1 ++ a) + (0#1 ++ b)

def pc2 (rs : BitVec 64) (i : Nat) : BitVec 2 :=
  addCounts (rs.extractLsb' (2 * i) 1) (rs.extractLsb' (2 * i + 1) 1)

def pc4 (rs : BitVec 64) (i : Nat) : BitVec 3 := addCounts (pc2 rs (2 * i)) (pc2 rs (2 * i + 1))

def pc8 (rs : BitVec 64) (i : Nat) : BitVec 4 := addCounts (pc4 rs (2 * i)) (pc4 rs (2 * i + 1))

def pc16 (rs : BitVec 64) (i : Nat) : BitVec 5 := addCounts (pc8 rs (2 * i)) (pc8 rs (2 * i + 1))

/-- `pc32`, after the clock edge. -/
def pc32 (s : BitCounter) (i : Fin 2) : BitVec 6 :=
  match i with
  | 0 => addCounts (s.pc16R 0) (s.pc16R 1)
  | 1 => addCounts (s.pc16R 2) (s.pc16R 3)

/-- `popcnt`. -/
def popcntOut (s : BitCounter) : BitVec 64 :=
  if s.dlenR.extractLsb' 2 2 = 0 then
    let byte (i : Fin 8) := 0#4 ++ s.pc8R i
    byte 7 ++ byte 6 ++ byte 5 ++ byte 4 ++ byte 3 ++ byte 2 ++ byte 1 ++ byte 0
  else if !s.dlenR.getLsbD 3 then
    (0#26 ++ pc32 s 1) ++ (0#26 ++ pc32 s 0)
  else
    0#57 ++ addCounts (pc32 s 0) (pc32 s 1)

/-- `result`. -/
def result (s : BitCounter) : BitVec 64 :=
  if !s.pcntR then cntz s else popcntOut s

/-- A clock edge. -/
def edge (s : BitCounter) (i : BitCounterIn) : BitCounter :=
  if i.stall then s
  else
    { inpR := inp i
      sumR := sum (inp i)
      dlenR := i.datalen
      pcntR := i.doPopcnt
      pc8R := fun k => pc8 i.rs k.val
      pc16R := fun k => pc16 i.rs k.val }

/-! ## Counting zeroes -/

section

variable {w : Nat} {val : BitVec w}

theorem ffs_of_isLowest {k : Nat} (h : IsLowest val k) : ffs val = k := by
  have hfind : (List.range w).find? (fun i => val.getLsbD i) = some k := by
    rw [List.find?_range_eq_some]
    exact ⟨h.set, List.mem_range.mpr h.lt, fun j hj => by simp [h.below j hj]⟩
  rw [ffs, hfind]
  rfl

theorem ffs_zero : ffs (0 : BitVec w) = w := by
  have hfind : (List.range w).find? (fun i => (0 : BitVec w).getLsbD i) = none := by
    simp [List.find?_eq_none]
  rw [ffs, hfind]
  rfl

/-- Counting from the left is counting the reversed operand from the right. -/
theorem ffs_reverse : ffs val.reverse = fls val := by
  unfold ffs fls
  congr 1
  apply List.find?_congr
  intro i hi
  rw [BitVec.getLsbD_reverse, BitVec.getMsbD]
  simp [List.mem_range.mp hi]

end

/-- A word below ones, for the 32-bit instructions. -/
theorem ffs_ones_append (x : BitVec 32) : ffs (0xFFFFFFFF#32 ++ x) = ffs x := by
  by_cases hx : x = 0
  · subst hx
    rw [ffs_zero]
    exact ffs_of_isLowest ⟨by decide, by decide⟩
  · obtain ⟨k, hk⟩ := exists_isLowest_of_ne_zero hx
    have hlt := hk.lt
    rw [ffs_of_isLowest hk]
    refine ffs_of_isLowest ⟨?_, ?_⟩
    · rw [BitVec.getLsbD_append, if_pos hlt]
      exact hk.set
    · intro j hj
      rw [BitVec.getLsbD_append, if_pos (by omega)]
      exact hk.below j hj

/-- The carry out of the sum tells that the operand is zero. -/
theorem sum_eq {v : BitVec 64} (hv : v ≠ 0) : sum v = 0#1 ++ -v := by
  apply BitVec.eq_of_toNat_eq
  have hne : v.toNat ≠ 0 := fun h => hv (BitVec.eq_of_toNat_eq (by simpa using h))
  have hlt := v.isLt
  rw [sum, BitVec.toNat_add, Bits.toNat_zero_append, Bits.toNat_zero_append, BitVec.toNat_not,
    BitVec.toNat_neg, show (1 : BitVec 65).toNat = 1 from rfl]
  omega

/-- The count of zeroes after the edge that took the operand. -/
theorem cntz_eq {s : BitCounter} (h : s.sumR = sum s.inpR) :
    cntz s = BitVec.ofNat 64 (ffs s.inpR) := by
  unfold cntz
  rw [h]
  generalize s.inpR = v
  by_cases hv : v = 0
  · subst hv
    rw [ffs_zero]
    decide +kernel
  · have hlow : (sum v).extractLsb' 0 64 = -v := by
      rw [sum_eq hv]
      exact BitVec.extractLsb'_append_eq_right
    have htop : (sum v).extractLsb' 64 1 = 0#1 := by
      rw [sum_eq hv]
      exact BitVec.extractLsb'_append_eq_left
    have hcount : (edgelocation (-v ||| v)).extractLsb' 2 4 ++
        (bitNumber (-v &&& v)).extractLsb' 0 2 = countRightZeroes v := by
      simp only [countRightZeroes, BitVec.signExtend_eq, BitVec.setWidth_eq]
    have hk := isLowest_countRightZeroes (by omega) hv
    simp only [hlow, htop]
    rw [hcount, ffs_of_isLowest hk]
    apply BitVec.eq_of_toNat_eq
    rw [Bits.toNat_zero_append, Bits.toNat_zero_append, BitVec.toNat_ofNat]
    have hlt := hk.lt
    omega

/-! ## Counting ones -/

theorem toNat_popcntLoop {n w : Nat} (val : BitVec w) (pos : Nat) (hn : 0 < n) (ret : BitVec n) :
    (popcntLoop val pos ret).toNat = val.cpopNatRec pos ret.toNat % 2 ^ n := by
  induction pos generalizing ret with
  | zero => simp [popcntLoop, Nat.mod_eq_of_lt ret.isLt]
  | succ i ih =>
    have hbit : (BitVec.ofBool (val.getLsbD i)).toNat < 2 ^ n := by
      have h1 : (BitVec.ofBool (val.getLsbD i)).toNat < 2 ^ 1 := BitVec.isLt _
      have h2 : 2 ^ 1 ≤ 2 ^ n := Nat.pow_le_pow_right (by omega) hn
      omega
    rw [popcntLoop, ih, BitVec.cpopNatRec_succ, BitVec.toNat_add, BitVec.toNat_setWidth,
      Nat.mod_eq_of_lt hbit, BitVec.cpopNatRec_eq, BitVec.cpopNatRec_eq (ret.toNat + _),
      BitVec.toNat_ofBool, Nat.add_mod_mod]

/-- The reference counts the ones, when its count is wide enough. -/
theorem toNat_popcnt {n w : Nat} (val : BitVec w) (hn : 0 < n) (hw : w < 2 ^ n) :
    (popcnt n val).toNat = val.cpop.toNat := by
  have hle := BitVec.toNat_cpop_le val
  have hlt : val.cpop.toNat < 2 ^ w := BitVec.isLt _
  rw [popcnt, BitVec.toNat_setWidth, toNat_popcntLoop val w hn,
    show (0 : BitVec n).toNat = 0 by simp, ← BitVec.toNat_cpop,
    Nat.mod_eq_of_lt (show val.cpop.toNat < 2 ^ n by omega), Nat.mod_eq_of_lt hlt]

theorem toNat_addCounts {n : Nat} (a b : BitVec n) :
    (addCounts a b).toNat = a.toNat + b.toNat := by
  have ha := a.isLt
  have hb := b.isLt
  have hpow : 2 ^ (1 + n) = 2 * 2 ^ n := by rw [Nat.pow_add]
  rw [addCounts, BitVec.toNat_add, Bits.toNat_zero_append, Bits.toNat_zero_append,
    Nat.mod_eq_of_lt (by omega)]

/-- The ones of a slice are those of its two parts. -/
theorem cpop_extract_add (rs : BitVec 64) (s m n : Nat) :
    (rs.extractLsb' s (n + m)).cpop.toNat =
      (rs.extractLsb' s m).cpop.toNat + (rs.extractLsb' (s + m) n).cpop.toNat := by
  have happ : rs.extractLsb' s (n + m) = rs.extractLsb' (s + m) n ++ rs.extractLsb' s m := by
    apply BitVec.eq_of_getLsbD_eq
    intro i hi
    rw [BitVec.getLsbD_append]
    split_ifs with hlt
    · simp [hi, hlt]
    · simp [hi, show i - m < n by omega, show s + m + (i - m) = s + i by omega]
  rw [happ, BitVec.toNat_cpop_append, Nat.add_comm]

variable (rs : BitVec 64) (i : Nat)

theorem toNat_pc2 : (pc2 rs i).toNat = (rs.extractLsb' (2 * i) 2).cpop.toNat := by
  have hbit (b : BitVec 1) : b.cpop = b := by
    revert b
    decide
  rw [pc2, toNat_addCounts, cpop_extract_add rs (2 * i) 1 1, hbit, hbit]

theorem toNat_pc4 : (pc4 rs i).toNat = (rs.extractLsb' (4 * i) 4).cpop.toNat := by
  rw [pc4, toNat_addCounts, toNat_pc2, toNat_pc2, cpop_extract_add rs (4 * i) 2 2,
    show 2 * (2 * i) = 4 * i by omega, show 2 * (2 * i + 1) = 4 * i + 2 by omega]

theorem toNat_pc8 : (pc8 rs i).toNat = (rs.extractLsb' (8 * i) 8).cpop.toNat := by
  rw [pc8, toNat_addCounts, toNat_pc4, toNat_pc4, cpop_extract_add rs (8 * i) 4 4,
    show 4 * (2 * i) = 8 * i by omega, show 4 * (2 * i + 1) = 8 * i + 4 by omega]

theorem toNat_pc16 : (pc16 rs i).toNat = (rs.extractLsb' (16 * i) 16).cpop.toNat := by
  rw [pc16, toNat_addCounts, toNat_pc8, toNat_pc8, cpop_extract_add rs (16 * i) 8 8,
    show 8 * (2 * i) = 16 * i by omega, show 8 * (2 * i + 1) = 16 * i + 8 by omega]

/-- The registers after an edge that took an operand. -/
structure Taken (s : BitCounter) (i : BitCounterIn) : Prop where
  inpR : s.inpR = inp i
  sumR : s.sumR = sum s.inpR
  dlenR : s.dlenR = i.datalen
  pcntR : s.pcntR = i.doPopcnt
  pc8R : ∀ k, s.pc8R k = pc8 i.rs k.val
  pc16R : ∀ k, s.pc16R k = pc16 i.rs k.val

/-- A stall keeps what was taken. -/
theorem taken_run (s : BitCounter) {i : BitCounterIn} (hi : i.stall = false)
    {stalls : List BitCounterIn} (hstalls : ∀ j ∈ stalls, j.stall = true) :
    Taken (Clocked.run edge s (i :: stalls)) i := by
  have hkeep (t : BitCounter) : Clocked.run edge t stalls = t := by
    induction stalls with
    | nil => rfl
    | cons j stalls ih =>
      have hj : edge t j = t := if_pos (hstalls j List.mem_cons_self)
      show Clocked.run edge (edge t j) stalls = t
      rw [hj]
      exact ih fun j' hj' => hstalls j' (List.mem_cons_of_mem j hj')
  show Taken (Clocked.run edge (edge s i) stalls) i
  rw [hkeep, edge, if_neg (by simp [hi])]
  exact ⟨rfl, rfl, rfl, rfl, fun _ => rfl, fun _ => rfl⟩

variable {rs} {s : BitCounter} {i : BitCounterIn}

theorem Taken.toNat_pc32 (h : Taken s i) (k : Fin 2) :
    (pc32 s k).toNat = (i.rs.extractLsb' (32 * k.val) 32).cpop.toNat := by
  rw [cpop_extract_add i.rs (32 * k.val) 16 16]
  match k with
  | 0 =>
      rw [pc32, toNat_addCounts, h.pc16R, h.pc16R, toNat_pc16, toNat_pc16]
      rfl
  | 1 =>
      rw [pc32, toNat_addCounts, h.pc16R, h.pc16R, toNat_pc16, toNat_pc16]
      rfl

/-- A byte of `popcntb`. -/
theorem Taken.byte (h : Taken s i) (k : Fin 8) :
    0#4 ++ s.pc8R k = popcnt 4 (i.rs.extractLsb' (8 * k.val) 8) := by
  apply BitVec.eq_of_toNat_eq
  rw [Bits.toNat_zero_append, h.pc8R, toNat_pc8, toNat_popcnt _ (by omega) (by decide)]

/-- A word of `popcntw`. -/
theorem Taken.word (h : Taken s i) (k : Fin 2) :
    0#26 ++ pc32 s k = popcnt 6 (i.rs.extractLsb' (32 * k.val) 32) := by
  apply BitVec.eq_of_toNat_eq
  rw [Bits.toNat_zero_append, h.toNat_pc32, toNat_popcnt _ (by omega) (by decide)]

theorem Taken.dword (h : Taken s i) :
    0#57 ++ addCounts (pc32 s 0) (pc32 s 1) = popcnt 7 i.rs := by
  apply BitVec.eq_of_toNat_eq
  have hall : i.rs.extractLsb' 0 (32 + 32) = i.rs := by
    rw [BitVec.extractLsb'_eq_self]
  rw [Bits.toNat_zero_append, toNat_addCounts, h.toNat_pc32, h.toNat_pc32,
    toNat_popcnt _ (by omega) (by decide)]
  exact (cpop_extract_add i.rs 0 32 32).symm.trans (by rw [hall])

/-! ## The instructions -/

/-- The instructions of `OP_COUNTB`. -/
inductive CountInsn where
  | cntlzw | cnttzw | cntlzd | cnttzd | popcntb | popcntw | popcntd
deriving DecidableEq

namespace CountInsn

/-- The extended opcode: bits 10 to 1 of the instruction word. -/
def xo : CountInsn → BitVec 10
  | cntlzw => 26
  | cnttzw => 538
  | cntlzd => 58
  | cnttzd => 570
  | popcntb => 122
  | popcntw => 378
  | popcntd => 506

/-- The column for 32-bit operations of the decode table. -/
def is32bit : CountInsn → Bool
  | cntlzw | cnttzw => true
  | _ => false

/-- The operand length of the decode table. -/
def dataLen : CountInsn → BitVec 4
  | popcntb => 1
  | popcntw => 4
  | popcntd => 8
  | _ => 0

/-- The reference function. -/
def reference : CountInsn → BitVec 64 → BitVec 64
  | cntlzw => ppcCntlzw
  | cnttzw => ppcCnttzw
  | cntlzd => ppcCntlzd
  | cnttzd => ppcCnttzd
  | popcntb => ppcPopcntb
  | popcntw => ppcPopcntw
  | popcntd => ppcPopcntd

/-- What `decode2` and `execute1` send with an operand. -/
def inputs (insn : CountInsn) (rs : BitVec 64) : BitCounterIn where
  rs := rs
  stall := false
  -- bit 10 of the instruction
  countRight := insn.xo.getLsbD 9
  -- bits 7 and 6 of the instruction
  doPopcnt := insn.xo.extractLsb' 5 2 == 3
  is32bit := insn.is32bit
  datalen := insn.dataLen

end CountInsn

/-- The counter computes the reference function of each instruction. -/
theorem Taken.result_eq {insn : CountInsn} {rs : BitVec 64} (h : Taken s (insn.inputs rs)) :
    result s = insn.reference rs := by
  have hcntz := cntz_eq h.sumR
  rw [h.inpR] at hcntz
  unfold result
  rw [h.pcntR]
  cases insn with
  | cntlzw =>
      refine hcntz.trans ?_
      show BitVec.ofNat 64 (ffs (0xFFFFFFFF#32 ++ (rs.extractLsb' 0 32).reverse)) = ppcCntlzw rs
      rw [ffs_ones_append, ffs_reverse]
      rfl
  | cnttzw =>
      refine hcntz.trans ?_
      show BitVec.ofNat 64 (ffs (0xFFFFFFFF#32 ++ rs.extractLsb' 0 32)) = ppcCnttzw rs
      rw [ffs_ones_append]
      rfl
  | cntlzd =>
      refine hcntz.trans ?_
      show BitVec.ofNat 64 (ffs rs.reverse) = ppcCntlzd rs
      rw [ffs_reverse]
      rfl
  | cnttzd => exact hcntz
  | popcntb =>
      show popcntOut s = ppcPopcntb rs
      have hlen : s.dlenR = 1 := h.dlenR
      unfold popcntOut
      rw [hlen, if_pos (by decide)]
      simp only [h.byte]
      rfl
  | popcntw =>
      show popcntOut s = ppcPopcntw rs
      have hlen : s.dlenR = 4 := h.dlenR
      unfold popcntOut
      rw [hlen, if_neg (by decide), if_pos (by decide), h.word, h.word]
      rfl
  | popcntd =>
      show popcntOut s = ppcPopcntd rs
      have hlen : s.dlenR = 8 := h.dlenR
      unfold popcntOut
      rw [hlen, if_neg (by decide), if_neg (by decide), h.dword]
      rfl

/-- Zeroes are counted right for every width up to 64, and after the edge that takes its operand,
and as long as the unit is stalled then, the counter gives the reference result of each
instruction. -/
theorem counts_right :
    (∀ (w : Nat) (val : BitVec w), 1 ≤ w → w ≤ 64 → val ≠ 0 →
      IsLowest val (countRightZeroes val).toNat ∧
      (countLeftZeroes val).toNat < w ∧
      IsHighest val (w - 1 - (countLeftZeroes val).toNat)) ∧
    ∀ (insn : CountInsn) (rs : BitVec 64) (s : BitCounter) (stalls : List BitCounterIn),
      (∀ j ∈ stalls, j.stall = true) →
      result (Clocked.run edge s (insn.inputs rs :: stalls)) = insn.reference rs := by
  constructor
  · intro w val _ hw hne
    exact ⟨isLowest_countRightZeroes hw hne, isHighest_countLeftZeroes hw hne⟩
  · intro insn rs s stalls hstalls
    exact (taken_run s rfl hstalls).result_eq

/-- Fourteen bits, and a count of ones without a stall. -/
theorem counts_right_small :
    IsLowest 0x1230#14 (countRightZeroes 0x1230#14).toNat ∧
      result (Clocked.run edge ⟨0, 0, 0, false, fun _ => 0, fun _ => 0⟩
        [CountInsn.popcntw.inputs 0x300000007]) = 0x200000003 :=
  ⟨(counts_right.1 14 0x1230 (by decide) (by decide) (by decide)).1,
    (counts_right.2 .popcntw 0x300000007 _ [] (by simp)).trans (by decide +kernel)⟩

end Microwatt.Countbits
