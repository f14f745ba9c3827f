import Microwatt.Rotator

/-!
# The rotate and shift instructions

The reference functions of `ppc_fx_insns.vhdl` for the rotates and shifts, the inputs that decoding
gives to the rotator for each of the instructions, and the agreement of the two for all operands.
-/

namespace Microwatt.Rotator

/-! ## The reference functions -/

/-- The bits of `tmp1` at some places in `tmp2`. -/
def selectBits (p : Nat → Bool) (tmp1 tmp2 : BitVec 64) : BitVec 64 :=
  Bits.ofBits 64 fun i => if p i then tmp1.getLsbD i else tmp2.getLsbD i

/-- The loops with a mask from `lo` to `hi`, which may wrap around. -/
def maskLoop (hi lo : Nat) (tmp1 tmp2 : BitVec 64) : BitVec 64 :=
  if hi < lo then selectBits (fun i => decide (i ≤ hi) || decide (lo ≤ i)) tmp1 tmp2
  else selectBits (fun i => decide (lo ≤ i) && decide (i ≤ hi)) tmp1 tmp2

/-- The rotates of words, into `tmp2`. -/
def rotateWord (tmp2 rs : BitVec 64) (n : BitVec 5) (mb me : BitVec 5) : BitVec 64 :=
  maskLoop (31 - mb.toNat) (31 - me.toNat)
    ((rs.extractLsb' 0 32 ++ rs.extractLsb' 0 32 : BitVec 64).rotateLeft n.toNat) tmp2

def ppcRlwinm (rs : BitVec 64) (sh mb me : BitVec 5) : BitVec 64 := rotateWord 0 rs sh mb me

def ppcRlwnm (rs rb : BitVec 64) (mb me : BitVec 5) : BitVec 64 :=
  rotateWord 0 rs (rb.extractLsb' 0 5) mb me

def ppcRlwimi (ra rs : BitVec 64) (sh mb me : BitVec 5) : BitVec 64 := rotateWord ra rs sh mb me

def ppcRldicl (rs : BitVec 64) (sh mb : BitVec 6) : BitVec 64 :=
  selectBits (fun i => decide (i ≤ 63 - mb.toNat)) (rs.rotateLeft sh.toNat) 0

def ppcRldicr (rs : BitVec 64) (sh me : BitVec 6) : BitVec 64 :=
  selectBits (fun i => decide (63 - me.toNat ≤ i)) (rs.rotateLeft sh.toNat) 0

def ppcRldic (rs : BitVec 64) (sh mb : BitVec 6) : BitVec 64 :=
  maskLoop (63 - mb.toNat) sh.toNat (rs.rotateLeft sh.toNat) 0

def ppcRldcl (rs rb : BitVec 64) (mb : BitVec 6) : BitVec 64 :=
  selectBits (fun i => decide (i ≤ 63 - mb.toNat))
    (rs.rotateLeft (rb.extractLsb' 0 6).toNat) 0

def ppcRldcr (rs rb : BitVec 64) (me : BitVec 6) : BitVec 64 :=
  selectBits (fun i => decide (63 - me.toNat ≤ i))
    (rs.rotateLeft (rb.extractLsb' 0 6).toNat) 0

def ppcRldimi (ra rs : BitVec 64) (sh mb : BitVec 6) : BitVec 64 :=
  maskLoop (63 - mb.toNat) sh.toNat (rs.rotateLeft sh.toNat) ra

def ppcSlw (rs rb : BitVec 64) : BitVec 64 :=
  0#32 ++ rs.extractLsb' 0 32 <<< (rb.extractLsb' 0 6).toNat

def ppcSrw (rs rb : BitVec 64) : BitVec 64 :=
  0#32 ++ rs.extractLsb' 0 32 >>> (rb.extractLsb' 0 6).toNat

def ppcSld (rs rb : BitVec 64) : BitVec 64 := rs <<< (rb.extractLsb' 0 7).toNat

def ppcSrd (rs rb : BitVec 64) : BitVec 64 := rs >>> (rb.extractLsb' 0 7).toNat

/-- `mask`: the bits that a shift by `n` loses. -/
def lostMask (n : Nat) : BitVec 64 := Bits.ofBits 64 fun i => decide (i < n)

/-- The algebraic shifts of words, with the carry in front. -/
def shiftWord (rs : BitVec 64) (n : Nat) : BitVec 65 :=
  let carry := if rs &&& lostMask n = 0 then false else rs.getLsbD 31
  BitVec.ofBool carry ++ ((rs.extractLsb' 0 32).sshiftRight n).signExtend 64

def ppcSrawi (rs : BitVec 64) (sh : BitVec 6) : BitVec 65 := shiftWord rs sh.toNat

def ppcSraw (rs rb : BitVec 64) : BitVec 65 :=
  let n := (rb.extractLsb' 0 6).toNat
  let carry := rs &&& lostMask n != 0 && rs.getLsbD 31
  BitVec.ofBool carry ++ ((rs.extractLsb' 0 32).sshiftRight n).signExtend 64

/-- The algebraic shifts of doublewords, with the carry in front. -/
def shiftDword (rs : BitVec 64) (n : Nat) : BitVec 65 :=
  let carry := if rs &&& lostMask n = 0 then false else rs.getLsbD 63
  BitVec.ofBool carry ++ rs.sshiftRight n

def ppcSradi (rs : BitVec 64) (sh : BitVec 6) : BitVec 65 := shiftDword rs sh.toNat

def ppcSrad (rs rb : BitVec 64) : BitVec 65 := shiftDword rs (rb.extractLsb' 0 7).toNat

/-! ## The instructions -/

inductive RotInsn where
  | rlwinm | rlwnm | rlwimi | rldicl | rldicr | rldic | rldcl | rldcr | rldimi
  | slw | srw | sld | srd | sraw | srawi | srad | sradi
deriving DecidableEq

namespace RotInsn

def insnMb32 (insn : BitVec 32) : BitVec 5 := insn.extractLsb' 6 5

def insnMe32 (insn : BitVec 32) : BitVec 5 := insn.extractLsb' 1 5

def insnSh32 (insn : BitVec 32) : BitVec 5 := insn.extractLsb' 11 5

/-- `insn_mb`, which is also `insn_me`. -/
def insnMb (insn : BitVec 32) : BitVec 6 := insn.extractLsb' 5 1 ++ insn.extractLsb' 6 5

def insnSh (insn : BitVec 32) : BitVec 6 := insn.extractLsb' 1 1 ++ insn.extractLsb' 11 5

/-- The columns of the decode table that control the rotator. -/
structure Decode where
  /-- RA is an operand -/
  in1 : Bool
  is32bit : Bool
  /-- the column `invert_a` -/
  rightShift : Bool
  isSigned : Bool
  /-- bits 2 and 0 of `subresult` -/
  clearLeft : Bool
  clearRight : Bool

def decode : RotInsn → Decode
  | rlwinm => ⟨false, true, false, false, true, true⟩
  | rlwnm => ⟨false, true, false, false, true, true⟩
  | rlwimi => ⟨true, true, false, false, true, true⟩
  | rldicl => ⟨false, false, false, false, true, false⟩
  | rldicr => ⟨false, false, false, false, false, true⟩
  | rldic => ⟨false, false, false, false, true, true⟩
  | rldcl => ⟨false, false, false, false, true, false⟩
  | rldcr => ⟨false, false, false, false, false, true⟩
  | rldimi => ⟨true, false, false, false, true, true⟩
  | slw => ⟨false, true, false, false, false, false⟩
  | srw => ⟨false, true, true, false, false, false⟩
  | sld => ⟨false, false, false, false, false, false⟩
  | srd => ⟨false, false, true, false, false, false⟩
  | sraw => ⟨false, true, true, true, false, false⟩
  | srawi => ⟨false, true, true, true, false, false⟩
  | srad => ⟨false, false, true, true, false, false⟩
  | sradi => ⟨false, false, true, true, false, false⟩

/-- The low bits of operand B: RB, or a constant of the instruction. -/
def shift (insn : BitVec 32) (rb : BitVec 64) : RotInsn → BitVec 7
  | rlwinm | rlwimi | srawi => 0#2 ++ insnSh32 insn
  | rldicl | rldicr | rldic | rldimi | sradi => 0#1 ++ insnSh insn
  | _ => rb.extractLsb' 0 7

/-- What the rotator gets for an instruction; an operand that is not read is zero. -/
def inputs (op : RotInsn) (insn : BitVec 32) (rs ra rb : BitVec 64) : RotatorIn where
  rs := rs
  ra := if op.decode.in1 then ra else 0
  shift := op.shift insn rb
  insn := insn
  is32bit := op.decode.is32bit
  rightShift := op.decode.rightShift
  arith := op.decode.isSigned
  clearLeft := op.decode.clearLeft
  clearRight := op.decode.clearRight
  signExtRs := false

/-- The reference result, with the carry in front. -/
def reference (op : RotInsn) (insn : BitVec 32) (rs ra rb : BitVec 64) : BitVec 65 :=
  match op with
  | rlwinm => 0#1 ++ ppcRlwinm rs (insnSh32 insn) (insnMb32 insn) (insnMe32 insn)
  | rlwnm => 0#1 ++ ppcRlwnm rs rb (insnMb32 insn) (insnMe32 insn)
  | rlwimi => 0#1 ++ ppcRlwimi ra rs (insnSh32 insn) (insnMb32 insn) (insnMe32 insn)
  | rldicl => 0#1 ++ ppcRldicl rs (insnSh insn) (insnMb insn)
  | rldicr => 0#1 ++ ppcRldicr rs (insnSh insn) (insnMb insn)
  | rldic => 0#1 ++ ppcRldic rs (insnSh insn) (insnMb insn)
  | rldcl => 0#1 ++ ppcRldcl rs rb (insnMb insn)
  | rldcr => 0#1 ++ ppcRldcr rs rb (insnMb insn)
  | rldimi => 0#1 ++ ppcRldimi ra rs (insnSh insn) (insnMb insn)
  | slw => 0#1 ++ ppcSlw rs rb
  | srw => 0#1 ++ ppcSrw rs rb
  | sld => 0#1 ++ ppcSld rs rb
  | srd => 0#1 ++ ppcSrd rs rb
  | sraw => ppcSraw rs rb
  | srawi => ppcSrawi rs (0#1 ++ insnSh32 insn)
  | srad => ppcSrad rs rb
  | sradi => ppcSradi rs (insnSh insn)

end RotInsn

/-! ## The masks -/

theorem getLsbD_maskLoop {hi lo j : Nat} (x y : BitVec 64) (hj : j < 64) :
    (maskLoop hi lo x y).getLsbD j =
      if (if hi < lo then decide (j ≤ hi) || decide (lo ≤ j)
        else decide (lo ≤ j) && decide (j ≤ hi))
      then x.getLsbD j else y.getLsbD j := by
  unfold maskLoop selectBits
  by_cases hlt : hi < lo
  · rw [if_pos hlt, if_pos hlt, Bits.getLsbD_ofBits _ hj]
  · rw [if_neg hlt, if_neg hlt, Bits.getLsbD_ofBits _ hj]

namespace RotatorIn

variable {i : RotatorIn}

/-- The masks wrap around if the end is before the beginning. -/
theorem outputMode0_insert (h1 : i.outputMode1 = false) (hr : i.clearRight = true)
    (hb : i.mb.toNat < 64) (he : i.me.toNat < 64) :
    i.outputMode0 = decide (i.me.toNat < i.mb.toNat) := by
  unfold outputMode0
  rw [if_neg (by simp [h1]), hr, Bool.true_and, decide_eq_decide, BitVec.lt_def,
    BitVec.extractLsb'_toNat, BitVec.extractLsb'_toNat, Nat.shiftRight_zero, Nat.shiftRight_zero,
    Nat.mod_eq_of_lt hb, Nat.mod_eq_of_lt he]

/-- Inserting under the two masks is the loop of the reference functions. -/
theorem result_eq_maskLoop {b e : Nat} (h1 : i.outputMode1 = false) (hcr : i.clearRight = true)
    (hb : i.mb.toNat = 63 - b) (he : i.me.toNat = 63 - e) (hb' : b < 64) (he' : e < 64) :
    i.result = maskLoop b e i.rot i.ra := by
  apply BitVec.eq_of_getLsbD_eq
  intro j hj
  have hr : i.mr.getLsbD j = decide (j ≤ b) := by
    rw [mr, getLsbD_rightMask _ hj, hb, decide_eq_decide]
    omega
  have hl : i.ml.getLsbD j = decide (e ≤ j) := by
    rw [ml, getLsbD_leftMask _ hj, he, ← Bool.decide_and, decide_eq_decide]
    omega
  have h0 : i.outputMode0 = decide (b < e) := by
    rw [outputMode0_insert h1 hcr (by omega) (by omega), hb, he, decide_eq_decide]
    omega
  rw [getLsbD_result_insert h1 hj, getLsbD_maskLoop _ _ hj, h0, hr, hl,
    Bool.and_comm (decide (j ≤ b))]
  simp only [decide_eq_true_eq]

theorem getLsbD_double (w : BitVec 32) {k : Nat} (hk : k < 64) :
    (w ++ w : BitVec 64).getLsbD k = w.getLsbD (k % 32) := by
  rw [BitVec.getLsbD_append]
  by_cases hlt : k < 32
  · rw [if_pos hlt, Nat.mod_eq_of_lt hlt]
  · rw [if_neg hlt, show k % 32 = k - 32 by omega]

/-- A word that stands in both halves is rotated by the count modulo its width. -/
theorem rotateLeft_double (w : BitVec 32) (n : Nat) :
    (w ++ w : BitVec 64).rotateLeft n = (w ++ w : BitVec 64).rotateLeft (n % 32) := by
  apply BitVec.eq_of_getLsbD_eq
  intro j hj
  rw [getLsbD_rotateLeft _ _ hj, getLsbD_rotateLeft _ _ hj,
    getLsbD_double _ (Nat.mod_lt _ (by omega)), getLsbD_double _ (Nat.mod_lt _ (by omega))]
  congr 1
  omega

/-! ## The positions of the masks -/

theorem toNat_sh : i.sh.toNat = if i.is32bit then i.shift.toNat % 64 else i.shift.toNat := by
  have hlt := i.shift.isLt
  have h6 : i.shift.getLsbD 6 = decide (64 ≤ i.shift.toNat) := by
    rw [Bits.getLsbD_eq_div, decide_eq_decide]
    omega
  unfold sh
  rw [Bits.toNat_append, BitVec.toNat_ofBool, BitVec.extractLsb'_toNat, h6]
  cases i.is32bit
  · by_cases h64 : 64 ≤ i.shift.toNat
    · simp only [h64, decide_true, Bool.not_false, Bool.and_true, Bool.toNat_true,
        Nat.shiftRight_zero, Bool.false_eq_true, if_false]
      omega
    · simp only [h64, decide_false, Bool.false_and, Bool.toNat_false, Nat.shiftRight_zero,
        Bool.false_eq_true, if_false]
      omega
  · simp

theorem mb_word (hl : i.clearLeft = true) (hw : i.is32bit = true) :
    i.mb.toNat = 32 + (RotInsn.insnMb32 i.insn).toNat := by
  unfold mb
  rw [if_pos hl, if_pos hw, Bits.toNat_append]
  rfl

theorem mb_dword (hl : i.clearLeft = true) (hw : i.is32bit = false) :
    i.mb.toNat = (RotInsn.insnMb i.insn).toNat := by
  unfold mb
  rw [if_pos hl, if_neg (by simp [hw]), Bits.toNat_zero_append]
  rfl

theorem me_word (hr : i.clearRight = true) (hw : i.is32bit = true) :
    i.me.toNat = 32 + (RotInsn.insnMe32 i.insn).toNat := by
  unfold me
  rw [if_pos (by simp [hr, hw]), Bits.toNat_append]
  rfl

theorem me_dword (hr : i.clearRight = true) (hl : i.clearLeft = false) (hw : i.is32bit = false) :
    i.me.toNat = (RotInsn.insnMb i.insn).toNat := by
  unfold me
  rw [if_neg (by simp [hw]), if_pos (by simp [hr, hl]), Bits.toNat_zero_append]
  rfl

/-- The mask of a right shift begins where its count says, in words behind the upper half. -/
theorem mb_right (hl : i.clearLeft = false) (hr : i.rightShift = true) :
    i.mb.toNat = if i.is32bit then 32 + i.sh.toNat else i.sh.toNat := by
  have hsh := i.toNat_sh
  have hlt := i.shift.isLt
  unfold mb
  rw [if_neg (by simp [hl]), if_pos hr]
  cases hw : i.is32bit with
  | false => rfl
  | true =>
    rw [hw, if_pos rfl] at hsh
    rw [if_pos rfl, if_pos rfl, Bits.toNat_append, Bits.toNat_append, BitVec.toNat_not,
      BitVec.extractLsb'_toNat, BitVec.extractLsb'_toNat, Nat.shiftRight_eq_div_pow]
    omega

theorem mb_none (hl : i.clearLeft = false) (hr : i.rightShift = false) :
    i.mb.toNat = if i.is32bit then 32 else 0 := by
  unfold mb
  rw [if_neg (by simp [hl]), if_neg (by simp [hr])]
  cases i.is32bit <;> rfl

/-- The mask that a shift count ends. -/
theorem me_shift (h : (i.clearRight && i.is32bit) = false)
    (h' : (i.clearRight && !i.clearLeft) = false) :
    i.me.toNat = if i.sh.toNat < 64 then 63 - i.sh.toNat else 191 - i.sh.toNat := by
  have hlt := i.sh.isLt
  unfold me
  rw [h, h', if_neg (by simp), if_neg (by simp), Bits.toNat_append, BitVec.toNat_not,
    BitVec.extractLsb'_toNat, BitVec.extractLsb'_toNat, Nat.shiftRight_eq_div_pow]
  split_ifs <;> omega

theorem getLsbD_ml_shift {j : Nat} (h : (i.clearRight && i.is32bit) = false)
    (h' : (i.clearRight && !i.clearLeft) = false) (hj : j < 64) :
    i.ml.getLsbD j = decide (i.sh.toNat ≤ j) := by
  have hlt := i.sh.isLt
  unfold ml
  rw [getLsbD_leftMask _ hj, ← Bool.decide_and, decide_eq_decide, me_shift h h']
  split_ifs <;> omega

/-! ## Kinds of instructions -/

theorem repl32_word (hw : i.is32bit = true) :
    i.repl32 = i.rs.extractLsb' 0 32 ++ i.rs.extractLsb' 0 32 := by
  unfold repl32
  rw [if_pos hw]

theorem repl32_dword (hw : i.is32bit = false) (hx : i.signExtRs = false) : i.repl32 = i.rs := by
  unfold repl32
  rw [if_neg (by simp [hw]), if_neg (by simp [hx])]
  exact BitVec.extractLsb'_append_extractLsb'

/-- The count of a rotation to the left. -/
theorem rot_dword (hr : i.rightShift = false) (hw : i.is32bit = false) (hx : i.signExtRs = false) :
    i.rot = i.rs.rotateLeft (i.shift.extractLsb' 0 6).toNat := by
  rw [rot_eq, repl32_dword hw hx, rotCount, if_neg (by simp [hr])]

theorem rot_word (hr : i.rightShift = false) (hw : i.is32bit = true) :
    i.rot = (i.rs.extractLsb' 0 32 ++ i.rs.extractLsb' 0 32 : BitVec 64).rotateLeft
      (i.shift.extractLsb' 0 5).toNat := by
  rw [rot_eq, repl32_word hw, rotCount, if_neg (by simp [hr]), rotateLeft_double,
    BitVec.extractLsb'_toNat, BitVec.extractLsb'_toNat, Nat.mod_mod_of_dvd _ (by decide)]

theorem result_word (hl : i.clearLeft = true) (hcr : i.clearRight = true)
    (hr : i.rightShift = false) (hw : i.is32bit = true) :
    i.result = rotateWord i.ra i.rs (i.shift.extractLsb' 0 5) (RotInsn.insnMb32 i.insn)
      (RotInsn.insnMe32 i.insn) := by
  have hmb := (RotInsn.insnMb32 i.insn).isLt
  have hme := (RotInsn.insnMe32 i.insn).isLt
  unfold rotateWord
  rw [← rot_word hr hw]
  exact result_eq_maskLoop (by simp [outputMode1, hcr, hr]) hcr
    (by rw [mb_word hl hw]; omega) (by rw [me_word hcr hw]; omega) (by omega) (by omega)

/-- Rotates that clear on both sides. -/
theorem result_clear (hl : i.clearLeft = true) (hcr : i.clearRight = true)
    (hr : i.rightShift = false) (hw : i.is32bit = false) (hx : i.signExtRs = false)
    (h64 : i.shift.toNat < 64) :
    i.result = maskLoop (63 - (RotInsn.insnMb i.insn).toNat) i.shift.toNat
      (i.rs.rotateLeft i.shift.toNat) i.ra := by
  have hmb := (RotInsn.insnMb i.insn).isLt
  have hsh : i.sh.toNat = i.shift.toNat := by rw [toNat_sh, if_neg (by simp [hw])]
  have hrot := rot_dword hr hw hx
  rw [BitVec.extractLsb'_toNat, Nat.shiftRight_zero, Nat.mod_eq_of_lt h64] at hrot
  rw [← hrot]
  exact result_eq_maskLoop (by simp [outputMode1, hcr, hr]) hcr
    (by rw [mb_dword hl hw]; omega)
    (by rw [me_shift (by simp [hw]) (by simp [hl]), if_pos (by omega), hsh]) (by omega) h64

/-- Rotates that clear on the right. -/
theorem result_clearRight (hl : i.clearLeft = false) (hcr : i.clearRight = true)
    (hr : i.rightShift = false) (hw : i.is32bit = false) (hx : i.signExtRs = false)
    (ha : i.ra = 0) :
    i.result = selectBits (fun k => decide (63 - (RotInsn.insnMb i.insn).toNat ≤ k))
      (i.rs.rotateLeft (i.shift.extractLsb' 0 6).toNat) 0 := by
  have hme := (RotInsn.insnMb i.insn).isLt
  have hloop := result_eq_maskLoop (b := 63) (e := 63 - (RotInsn.insnMb i.insn).toNat)
    (by simp [outputMode1, hcr, hr]) hcr (by rw [mb_none hl hr, if_neg (by simp [hw])])
    (by rw [me_dword hcr hl hw]; omega) (by omega) (by omega)
  rw [hloop, rot_dword hr hw hx, ha]
  apply BitVec.eq_of_getLsbD_eq
  intro j hj
  rw [getLsbD_maskLoop _ _ hj, if_neg (by omega : ¬63 < 63 - (RotInsn.insnMb i.insn).toNat),
    selectBits, Bits.getLsbD_ofBits _ hj, decide_eq_true (by omega : j ≤ 63), Bool.and_true]

/-- Rotates that clear on the left. -/
theorem result_clearLeft (hl : i.clearLeft = true) (hcr : i.clearRight = false)
    (hr : i.rightShift = false) (ha : i.arith = false) (hw : i.is32bit = false)
    (hx : i.signExtRs = false) :
    i.result = selectBits (fun k => decide (k ≤ 63 - (RotInsn.insnMb i.insn).toNat))
      (i.rs.rotateLeft (i.shift.extractLsb' 0 6).toNat) 0 := by
  have hmb := (RotInsn.insnMb i.insn).isLt
  have h1 : i.outputMode1 = true := by simp [outputMode1, hl, hcr]
  have h0 : i.outputMode0 = false := by simp [outputMode0, h1, ha]
  apply BitVec.eq_of_getLsbD_eq
  intro j hj
  have hmr : i.mr.getLsbD j = decide (j ≤ 63 - (RotInsn.insnMb i.insn).toNat) := by
    rw [mr, getLsbD_rightMask _ hj, mb_dword hl hw, decide_eq_decide]
    omega
  rw [getLsbD_result_fill h1 hj, selectBits, Bits.getLsbD_ofBits _ hj, hmr, rot_dword hr hw hx, h0]
  simp

/-! ## Shifts -/

theorem getLsbD_result_left {j : Nat} (hl : i.clearLeft = false) (hcr : i.clearRight = false)
    (hr : i.rightShift = false) (ha : i.ra = 0) (hj : j < 64) :
    i.result.getLsbD j =
      (decide (i.mb.toNat ≤ 63 - j) && decide (i.sh.toNat ≤ j) && i.rot.getLsbD j) := by
  have h1 : i.outputMode1 = false := by simp [outputMode1, hl, hr]
  have h0 : i.outputMode0 = false := by simp [outputMode0, h1, hcr]
  have hmr : i.mr.getLsbD j = decide (i.mb.toNat ≤ 63 - j) := getLsbD_rightMask _ hj
  have hml : i.ml.getLsbD j = decide (i.sh.toNat ≤ j) :=
    getLsbD_ml_shift (by simp [hcr]) (by simp [hcr]) hj
  rw [getLsbD_result_insert h1 hj, h0, hmr, hml, ha]
  simp

/-- `slw`. -/
theorem result_left_word (hl : i.clearLeft = false) (hcr : i.clearRight = false)
    (hr : i.rightShift = false) (ha : i.ra = 0) (hw : i.is32bit = true) :
    i.result = 0#32 ++ i.rs.extractLsb' 0 32 <<< (i.shift.extractLsb' 0 6).toNat := by
  have hn : (i.shift.extractLsb' 0 6).toNat = i.sh.toNat := by
    rw [toNat_sh, if_pos hw, BitVec.extractLsb'_toNat, Nat.shiftRight_zero]
  have hlt : i.sh.toNat < 64 := by
    rw [toNat_sh, if_pos hw]
    exact Nat.mod_lt _ (by omega)
  apply BitVec.eq_of_getLsbD_eq
  intro j hj
  rw [getLsbD_result_left hl hcr hr ha hj, mb_none hl hr, if_pos hw, hn, i.getLsbD_rot hj,
    rotCount, if_neg (by simp [hr]), hn, repl32_word hw, getLsbD_double _ (Nat.mod_lt _ (by omega)),
    BitVec.getLsbD_append]
  by_cases h32 : j < 32
  · rw [if_pos h32, decide_eq_true (by omega : 32 ≤ 63 - j), BitVec.getLsbD_shiftLeft]
    by_cases hle : i.sh.toNat ≤ j
    · rw [show (j + (64 - i.sh.toNat)) % 64 % 32 = j - i.sh.toNat by omega]
      simp [h32, hle]
    · simp [hle, show j < i.sh.toNat by omega]
  · simp [h32, show ¬32 ≤ 63 - j by omega]

/-- `sld`. -/
theorem result_left_dword (hl : i.clearLeft = false) (hcr : i.clearRight = false)
    (hr : i.rightShift = false) (ha : i.ra = 0) (hw : i.is32bit = false)
    (hx : i.signExtRs = false) :
    i.result = i.rs <<< i.shift.toNat := by
  have hsh : i.sh.toNat = i.shift.toNat := by rw [toNat_sh, if_neg (by simp [hw])]
  apply BitVec.eq_of_getLsbD_eq
  intro j hj
  rw [getLsbD_result_left hl hcr hr ha hj, mb_none hl hr, if_neg (by simp [hw]), hsh,
    i.getLsbD_rot hj, rotCount, if_neg (by simp [hr]), repl32_dword hw hx, BitVec.extractLsb'_toNat,
    Nat.shiftRight_zero, BitVec.getLsbD_shiftLeft]
  by_cases hle : i.shift.toNat ≤ j
  · rw [show (j + (64 - i.shift.toNat % 2 ^ 6)) % 64 = j - i.shift.toNat by omega]
    simp [hj, hle]
  · simp [hle, show j < i.shift.toNat by omega]

/-- A right shift reads the bits further left and fills the rest. -/
theorem getLsbD_result_right {j : Nat} (hr : i.rightShift = true) (hj : j < 64) :
    i.result.getLsbD j =
      if i.mb.toNat ≤ 63 - j then i.repl32.getLsbD ((j + i.shift.toNat) % 64)
      else i.arith && i.repl32.getLsbD 63 := by
  have h1 : i.outputMode1 = true := by simp [outputMode1, hr]
  have hcount : (j + (64 - i.rotCount.toNat)) % 64 = (j + i.shift.toNat) % 64 := by
    rw [rotCount, if_pos hr, BitVec.toNat_neg, BitVec.extractLsb'_toNat, Nat.shiftRight_zero]
    omega
  rw [getLsbD_result_fill h1 hj, mr, getLsbD_rightMask _ hj, i.getLsbD_rot hj, hcount, outputMode0,
    if_pos h1]
  simp only [decide_eq_true_eq]

theorem getLsbD_result_right_word {j : Nat} (hl : i.clearLeft = false) (hr : i.rightShift = true)
    (hw : i.is32bit = true) (hj : j < 64) :
    i.result.getLsbD j =
      if i.shift.toNat % 64 + j < 32 then i.rs.getLsbD (i.shift.toNat % 64 + j)
      else i.arith && i.rs.getLsbD 31 := by
  rw [getLsbD_result_right hr hj, mb_right hl hr, if_pos hw, toNat_sh, if_pos hw, repl32_word hw,
    getLsbD_double _ (Nat.mod_lt _ (by omega)), getLsbD_double _ (by omega)]
  by_cases hlt : i.shift.toNat % 64 + j < 32
  · rw [if_pos (by omega), if_pos hlt,
      show (j + i.shift.toNat) % 64 % 32 = i.shift.toNat % 64 + j by omega]
    simp [hlt]
  · rw [if_neg (by omega), if_neg hlt]
    simp

theorem getLsbD_result_right_dword {j : Nat} (hl : i.clearLeft = false) (hr : i.rightShift = true)
    (hw : i.is32bit = false) (hx : i.signExtRs = false) (hj : j < 64) :
    i.result.getLsbD j =
      if i.shift.toNat + j < 64 then i.rs.getLsbD (i.shift.toNat + j)
      else i.arith && i.rs.getLsbD 63 := by
  have hmb : i.mb.toNat = i.shift.toNat := by
    rw [mb_right hl hr, if_neg (by simp [hw]), toNat_sh, if_neg (by simp [hw])]
  rw [getLsbD_result_right hr hj, hmb, repl32_dword hw hx]
  by_cases hlt : i.shift.toNat + j < 64
  · rw [if_pos (by omega), if_pos hlt,
      show (j + i.shift.toNat) % 64 = i.shift.toNat + j by omega]
  · rw [if_neg (by omega), if_neg hlt]

/-- The carry of an algebraic shift: the operand is negative and loses a one. -/
theorem carryOut_right (hcr : i.clearRight = false) (hr : i.rightShift = true)
    (ha : i.arith = true) :
    i.carryOut = (i.repl32.getLsbD 63 && i.rs &&& lostMask i.sh.toNat != 0) := by
  have h1 : i.outputMode1 = true := by simp [outputMode1, hr]
  have h0 : i.outputMode0 = i.repl32.getLsbD 63 := by rw [outputMode0, if_pos h1, ha, Bool.true_and]
  have hml : ~~~i.ml = lostMask i.sh.toNat := by
    apply BitVec.eq_of_getLsbD_eq
    intro j hj
    rw [BitVec.getLsbD_not, getLsbD_ml_shift (by simp [hcr]) (by simp [hcr]) hj, lostMask,
      Bits.getLsbD_ofBits _ hj, decide_eq_true hj, Bool.true_and, ← decide_not, decide_eq_decide]
    omega
  unfold carryOut
  rw [h1, h0, hml, Bool.true_and]
  cases i.repl32.getLsbD 63 <;> rfl

theorem and_bne_zero (sign : Bool) (x : BitVec 64) :
    (sign && x != 0) = if x = 0 then false else sign := by
  by_cases h : x = 0
  · rw [if_pos h, h]
    exact Bool.and_false sign
  · rw [if_neg h, bne_iff_ne.mpr h, Bool.and_true]

/-- `sraw` and `srawi`. -/
theorem algebraic_word (hl : i.clearLeft = false) (hcr : i.clearRight = false)
    (hr : i.rightShift = true) (ha : i.arith = true) (hw : i.is32bit = true) :
    BitVec.ofBool i.carryOut ++ i.result = shiftWord i.rs (i.shift.toNat % 64) := by
  have hmsb : (i.rs.extractLsb' 0 32).msb = i.rs.getLsbD 31 := by
    rw [BitVec.msb_eq_getLsbD_last, BitVec.getLsbD_extractLsb']
    simp
  have hsign : i.repl32.getLsbD 63 = i.rs.getLsbD 31 := by
    rw [repl32_word hw, getLsbD_double _ (by omega), BitVec.getLsbD_extractLsb']
    simp
  have hcarry : i.carryOut =
      if i.rs &&& lostMask (i.shift.toNat % 64) = 0 then false else i.rs.getLsbD 31 := by
    rw [carryOut_right hcr hr ha, hsign, toNat_sh, if_pos hw, and_bne_zero]
  have hresult : i.result =
      ((i.rs.extractLsb' 0 32).sshiftRight (i.shift.toNat % 64)).signExtend 64 := by
    apply BitVec.eq_of_getLsbD_eq
    intro j hj
    rw [getLsbD_result_right_word hl hr hw hj, ha, BitVec.getLsbD_signExtend,
      BitVec.msb_sshiftRight, BitVec.getLsbD_sshiftRight, hmsb]
    by_cases hlt : i.shift.toNat % 64 + j < 32
    · simp [hj, hlt, show j < 32 by omega, show ¬32 ≤ j by omega]
    · by_cases h32 : j < 32
      · simp [hj, hlt, h32, show ¬32 ≤ j by omega]
      · simp [hj, hlt, h32]
  rw [hcarry, hresult]
  rfl

/-- `srad` and `sradi`. -/
theorem algebraic_dword (hl : i.clearLeft = false) (hcr : i.clearRight = false)
    (hr : i.rightShift = true) (ha : i.arith = true) (hw : i.is32bit = false)
    (hx : i.signExtRs = false) :
    BitVec.ofBool i.carryOut ++ i.result = shiftDword i.rs i.shift.toNat := by
  have hcarry : i.carryOut =
      if i.rs &&& lostMask i.shift.toNat = 0 then false else i.rs.getLsbD 63 := by
    rw [carryOut_right hcr hr ha, repl32_dword hw hx, toNat_sh, if_neg (by simp [hw]), and_bne_zero]
  have hresult : i.result = i.rs.sshiftRight i.shift.toNat := by
    apply BitVec.eq_of_getLsbD_eq
    intro j hj
    rw [getLsbD_result_right_dword hl hr hw hx hj, ha, BitVec.getLsbD_sshiftRight,
      BitVec.msb_eq_getLsbD_last, decide_eq_false (by omega : ¬64 ≤ j)]
    rfl
  rw [hcarry, hresult]
  rfl

/-- `srw`. -/
theorem logical_word (hl : i.clearLeft = false) (hr : i.rightShift = true) (ha : i.arith = false)
    (hw : i.is32bit = true) :
    i.result = 0#32 ++ i.rs.extractLsb' 0 32 >>> (i.shift.toNat % 64) := by
  apply BitVec.eq_of_getLsbD_eq
  intro j hj
  rw [getLsbD_result_right_word hl hr hw hj, ha, BitVec.getLsbD_append, BitVec.getLsbD_ushiftRight,
    BitVec.getLsbD_extractLsb']
  by_cases hlt : i.shift.toNat % 64 + j < 32
  · simp [hlt, show j < 32 by omega]
  · simp [hlt]

/-- `srd`. -/
theorem logical_dword (hl : i.clearLeft = false) (hr : i.rightShift = true) (ha : i.arith = false)
    (hw : i.is32bit = false) (hx : i.signExtRs = false) :
    i.result = i.rs >>> i.shift.toNat := by
  apply BitVec.eq_of_getLsbD_eq
  intro j hj
  rw [getLsbD_result_right_dword hl hr hw hx hj, ha, BitVec.getLsbD_ushiftRight]
  by_cases hlt : i.shift.toNat + j < 64
  · rw [if_pos hlt]
  · rw [if_neg hlt, Bool.false_and, BitVec.getLsbD_of_ge _ _ (by omega)]

theorem carryOut_of_not_arith (ha : i.arith = false) : i.carryOut = false := by
  have h : (i.outputMode1 && i.outputMode0) = false := by
    unfold outputMode0
    rw [ha]
    cases i.outputMode1 <;> rfl
  rw [carryOut, if_neg (by simp [h])]

end RotatorIn

namespace RotInsn

variable (op : RotInsn) (insn : BitVec 32) (rs ra rb : BitVec 64)

theorem extract_zero_append {m n : Nat} (x : BitVec n) : (0#m ++ x).extractLsb' 0 n = x := by
  rw [BitVec.extractLsb'_append_eq_of_add_le (by omega), BitVec.extractLsb'_eq_self]

/-- The instructions without a carry. -/
theorem append_result {r : BitVec 64} (ha : op.decode.isSigned = false)
    (hr : (op.inputs insn rs ra rb).result = r) :
    BitVec.ofBool (op.inputs insn rs ra rb).carryOut ++ (op.inputs insn rs ra rb).result =
      0#1 ++ r := by
  rw [RotatorIn.carryOut_of_not_arith ha, hr]
  rfl

/-- The rotator does what the reference functions say, for all rotates and shifts. -/
theorem rotates_right :
    BitVec.ofBool (op.inputs insn rs ra rb).carryOut ++ (op.inputs insn rs ra rb).result =
      op.reference insn rs ra rb := by
  have hsh : (0#1 ++ insnSh insn).toNat = (insnSh insn).toNat := Bits.toNat_zero_append _
  have hlt : (0#1 ++ insnSh insn).toNat < 64 := hsh ▸ (insnSh insn).isLt
  have hsh32 : (0#2 ++ insnSh32 insn).toNat % 64 = (0#1 ++ insnSh32 insn).toNat := by
    have hlt32 := (insnSh32 insn).isLt
    rw [Bits.toNat_zero_append, Bits.toNat_zero_append]
    omega
  have hrb : (rb.extractLsb' 0 7).toNat % 64 = (rb.extractLsb' 0 6).toNat := by
    rw [BitVec.extractLsb'_toNat, BitVec.extractLsb'_toNat, Nat.mod_mod_of_dvd _ (by decide)]
  cases op with
  | rlwinm =>
    refine append_result _ _ _ _ _ rfl ?_
    rw [RotatorIn.result_word rfl rfl rfl rfl]
    exact congrArg (rotateWord 0 rs · _ _) (extract_zero_append _)
  | rlwnm =>
    refine append_result _ _ _ _ _ rfl ?_
    rw [RotatorIn.result_word rfl rfl rfl rfl]
    exact congrArg (rotateWord 0 rs · _ _) (BitVec.extractLsb'_extractLsb'_of_le (by omega))
  | rlwimi =>
    refine append_result _ _ _ _ _ rfl ?_
    rw [RotatorIn.result_word rfl rfl rfl rfl]
    exact congrArg (rotateWord ra rs · _ _) (extract_zero_append _)
  | rldicl =>
    refine append_result _ _ _ _ _ rfl ?_
    rw [RotatorIn.result_clearLeft rfl rfl rfl rfl rfl rfl]
    exact congrArg (fun n : BitVec 6 => selectBits _ (rs.rotateLeft n.toNat) 0)
      (extract_zero_append (m := 1) (insnSh insn))
  | rldicr =>
    refine append_result _ _ _ _ _ rfl ?_
    rw [RotatorIn.result_clearRight rfl rfl rfl rfl rfl rfl]
    exact congrArg (fun n : BitVec 6 => selectBits _ (rs.rotateLeft n.toNat) 0)
      (extract_zero_append (m := 1) (insnSh insn))
  | rldic =>
    refine append_result _ _ _ _ _ rfl ?_
    rw [RotatorIn.result_clear rfl rfl rfl rfl rfl hlt]
    exact congrArg (fun n => maskLoop _ n (rs.rotateLeft n) 0) hsh
  | rldcl =>
    refine append_result _ _ _ _ _ rfl ?_
    rw [RotatorIn.result_clearLeft rfl rfl rfl rfl rfl rfl]
    exact congrArg (fun n : BitVec 6 => selectBits _ (rs.rotateLeft n.toNat) 0)
      (BitVec.extractLsb'_extractLsb'_of_le (by omega))
  | rldcr =>
    refine append_result _ _ _ _ _ rfl ?_
    rw [RotatorIn.result_clearRight rfl rfl rfl rfl rfl rfl]
    exact congrArg (fun n : BitVec 6 => selectBits _ (rs.rotateLeft n.toNat) 0)
      (BitVec.extractLsb'_extractLsb'_of_le (by omega))
  | rldimi =>
    refine append_result _ _ _ _ _ rfl ?_
    rw [RotatorIn.result_clear rfl rfl rfl rfl rfl hlt]
    exact congrArg (fun n => maskLoop _ n (rs.rotateLeft n) ra) hsh
  | slw =>
    refine append_result _ _ _ _ _ rfl ?_
    rw [RotatorIn.result_left_word rfl rfl rfl rfl rfl]
    exact congrArg (fun n : BitVec 6 => 0#32 ++ rs.extractLsb' 0 32 <<< n.toNat)
      (BitVec.extractLsb'_extractLsb'_of_le (by omega))
  | srw =>
    refine append_result _ _ _ _ _ rfl ?_
    rw [RotatorIn.logical_word rfl rfl rfl rfl]
    exact congrArg (fun n => 0#32 ++ rs.extractLsb' 0 32 >>> n) hrb
  | sld => exact append_result _ _ _ _ _ rfl (RotatorIn.result_left_dword rfl rfl rfl rfl rfl rfl)
  | srd => exact append_result _ _ _ _ _ rfl (RotatorIn.logical_dword rfl rfl rfl rfl rfl)
  | sraw =>
    rw [RotatorIn.algebraic_word rfl rfl rfl rfl rfl]
    show shiftWord rs ((rb.extractLsb' 0 7).toNat % 64) = _
    rw [hrb]
    unfold reference ppcSraw shiftWord
    rw [← RotatorIn.and_bne_zero, Bool.and_comm]
  | srawi =>
    rw [RotatorIn.algebraic_word rfl rfl rfl rfl rfl]
    exact congrArg (shiftWord rs) hsh32
  | srad => exact RotatorIn.algebraic_dword rfl rfl rfl rfl rfl rfl
  | sradi =>
    rw [RotatorIn.algebraic_dword rfl rfl rfl rfl rfl rfl]
    exact congrArg (shiftDword rs) hsh

end RotInsn

end Microwatt.Rotator
