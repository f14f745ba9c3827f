import Microwatt.Lib.Bits

/-!
# The rotator

`rotator.vhdl`: the operand is rotated in three stages, and two masks, given by a beginning and an
end in big-endian bit numbers, say where the result comes from.
-/

namespace Microwatt.Rotator

/-- The inputs of `rotator`. -/
structure RotatorIn where
  rs : BitVec 64
  ra : BitVec 64
  shift : BitVec 7
  insn : BitVec 32
  is32bit : Bool
  rightShift : Bool
  arith : Bool
  clearLeft : Bool
  clearRight : Bool
  signExtRs : Bool

/-- `right_mask`: ones from bit `maskBegin` on, counted from the left. -/
def rightMask (maskBegin : BitVec 7) : BitVec 64 :=
  Bits.ofBits 64 fun j => decide (maskBegin.toNat ≤ 63 - j)

/-- `left_mask`: ones up to bit `maskEnd`, counted from the left. -/
def leftMask (maskEnd : BitVec 7) : BitVec 64 :=
  if !maskEnd.getLsbD 6 then Bits.ofBits 64 fun j => decide (63 - j ≤ maskEnd.toNat) else 0

/-- `x` rotated to the left by `n` places, as two slices. -/
def rotSlices (n : Nat) (x : BitVec 64) : BitVec 64 :=
  (x.extractLsb' 0 (64 - n) ++ x.extractLsb' (64 - n) n).setWidth 64

/-- A stage of the rotation, by 0, 1, 2 or 3 times `n` places. -/
def rotStage (n : Nat) (count : BitVec 2) (x : BitVec 64) : BitVec 64 :=
  if count = 0 then x
  else if count = 1 then rotSlices n x
  else if count = 2 then rotSlices (2 * n) x
  else rotSlices (3 * n) x

namespace RotatorIn

variable (i : RotatorIn)

/-- `repl32`: a 32-bit operand stands in both halves. -/
def repl32 : BitVec 64 :=
  let hi32 :=
    if i.is32bit then i.rs.extractLsb' 0 32
    else if i.signExtRs then BitVec.fill 32 (i.rs.getLsbD 31)
    else i.rs.extractLsb' 32 32
  hi32 ++ i.rs.extractLsb' 0 32

/-- `rot_count`. -/
def rotCount : BitVec 6 :=
  if i.rightShift then -i.shift.extractLsb' 0 6 else i.shift.extractLsb' 0 6

/-- `rot`. -/
def rot : BitVec 64 :=
  let rot1 := rotStage 1 (i.rotCount.extractLsb' 0 2) i.repl32
  let rot2 := rotStage 4 (i.rotCount.extractLsb' 2 2) rot1
  rotStage 16 (i.rotCount.extractLsb' 4 2) rot2

/-- `sh`. -/
def sh : BitVec 7 :=
  BitVec.ofBool (i.shift.getLsbD 6 && !i.is32bit) ++ i.shift.extractLsb' 0 6

/-- The mask field of the 64-bit rotates. -/
def maskField : BitVec 6 := i.insn.extractLsb' 5 1 ++ i.insn.extractLsb' 6 5

/-- `mb`. -/
def mb : BitVec 7 :=
  if i.clearLeft then
    if i.is32bit then 1#2 ++ i.insn.extractLsb' 6 5 else 0#1 ++ i.maskField
  else if i.rightShift then
    if i.is32bit then
      (i.sh.extractLsb' 5 1 ++ ~~~i.sh.extractLsb' 5 1) ++ i.sh.extractLsb' 0 5
    else i.sh
  else (0#1 ++ BitVec.ofBool i.is32bit) ++ 0#5

/-- `me`. -/
def me : BitVec 7 :=
  if i.clearRight && i.is32bit then 1#2 ++ i.insn.extractLsb' 1 5
  else if i.clearRight && !i.clearLeft then 0#1 ++ i.maskField
  else i.sh.extractLsb' 6 1 ++ ~~~i.sh.extractLsb' 0 6

def mr : BitVec 64 := rightMask i.mb

def ml : BitVec 64 := leftMask i.me

/-- Bit 1 of `output_mode`. -/
def outputMode1 : Bool := i.clearLeft && !i.clearRight || i.rightShift

/-- Bit 0 of `output_mode`. -/
def outputMode0 : Bool :=
  if i.outputMode1 then i.arith && i.repl32.getLsbD 63
  else i.clearRight && decide (i.me.extractLsb' 0 6 < i.mb.extractLsb' 0 6)

def result : BitVec 64 :=
  match i.outputMode1, i.outputMode0 with
  | false, false => (i.rot &&& (i.mr &&& i.ml)) ||| (i.ra &&& ~~~(i.mr &&& i.ml))
  | false, true => (i.rot &&& (i.mr ||| i.ml)) ||| (i.ra &&& ~~~(i.mr ||| i.ml))
  | true, false => i.rot &&& i.mr
  | true, true => i.rot ||| ~~~i.mr

/-- `carry_out`: a one is shifted out of a negative operand. -/
def carryOut : Bool :=
  if i.outputMode1 && i.outputMode0 then i.rs &&& ~~~i.ml != 0 else false

end RotatorIn

/-! ## The rotation -/

theorem getLsbD_rotSlices {n j : Nat} (x : BitVec 64) (hn : n ≤ 64) (hj : j < 64) :
    (rotSlices n x).getLsbD j = x.getLsbD ((j + (64 - n)) % 64) := by
  unfold rotSlices
  rw [BitVec.getLsbD_setWidth, BitVec.getLsbD_append, BitVec.getLsbD_extractLsb',
    BitVec.getLsbD_extractLsb']
  split_ifs with hlt
  · rw [show (j + (64 - n)) % 64 = 64 - n + j by omega]
    simp [hj, hlt]
  · rw [show (j + (64 - n)) % 64 = j - n by omega]
    simp [hj, show j - n < 64 - n by omega]

theorem getLsbD_rotStage {n j : Nat} (c : BitVec 2) (x : BitVec 64) (hn : 3 * n ≤ 64)
    (hj : j < 64) :
    (rotStage n c x).getLsbD j = x.getLsbD ((j + (64 - c.toNat * n)) % 64) := by
  have hc : c = 0 ∨ c = 1 ∨ c = 2 ∨ c = 3 := by
    revert c
    decide
  unfold rotStage
  rcases hc with rfl | rfl | rfl | rfl
  · rw [if_pos rfl, show (j + (64 - (0 : BitVec 2).toNat * n)) % 64 = j by simp; omega]
  · rw [if_neg (by decide), if_pos rfl, getLsbD_rotSlices x (by omega) hj]
    simp
  · rw [if_neg (by decide), if_neg (by decide), if_pos rfl, getLsbD_rotSlices x (by omega) hj]
    rfl
  · rw [if_neg (by decide), if_neg (by decide), if_neg (by decide),
      getLsbD_rotSlices x (by omega) hj]
    rfl

/-- The three stages rotate by the whole count. -/
theorem RotatorIn.getLsbD_rot (i : RotatorIn) {j : Nat} (hj : j < 64) :
    i.rot.getLsbD j = i.repl32.getLsbD ((j + (64 - i.rotCount.toNat)) % 64) := by
  have hc := i.rotCount.isLt
  unfold RotatorIn.rot
  rw [getLsbD_rotStage _ _ (by omega) hj, getLsbD_rotStage _ _ (by omega) (Nat.mod_lt _ (by omega)),
    getLsbD_rotStage _ _ (by omega) (Nat.mod_lt _ (by omega))]
  simp only [BitVec.extractLsb'_toNat, Nat.shiftRight_eq_div_pow]
  congr 1
  omega

theorem getLsbD_rotateLeft (x : BitVec 64) (n : Nat) {j : Nat} (hj : j < 64) :
    (x.rotateLeft n).getLsbD j = x.getLsbD ((j + (64 - n % 64)) % 64) := by
  have hn : n % 64 < 64 := Nat.mod_lt _ (by omega)
  rw [BitVec.getLsbD_rotateLeft]
  by_cases hlt : j < n % 64
  · rw [show (j + (64 - n % 64)) % 64 = 64 - n % 64 + j by omega]
    simp [hlt]
  · rw [show (j + (64 - n % 64)) % 64 = j - n % 64 by omega]
    simp [hlt, hj]

theorem getLsbD_rightMask (b : BitVec 7) {j : Nat} (hj : j < 64) :
    (rightMask b).getLsbD j = decide (b.toNat ≤ 63 - j) := by
  rw [rightMask, Bits.getLsbD_ofBits _ hj]

theorem getLsbD_leftMask (e : BitVec 7) {j : Nat} (hj : j < 64) :
    (leftMask e).getLsbD j = (decide (e.toNat < 64) && decide (63 - j ≤ e.toNat)) := by
  have h6 : e.getLsbD 6 = decide (64 ≤ e.toNat) := by
    have hlt := e.isLt
    rw [Bits.getLsbD_eq_div, decide_eq_decide]
    omega
  unfold leftMask
  rw [h6]
  by_cases hlt : e.toNat < 64
  · rw [if_pos (by simp [hlt]), Bits.getLsbD_ofBits _ hj]
    simp [hlt]
  · rw [if_neg (by simp [hlt])]
    simp [hlt]

namespace RotatorIn

variable (i : RotatorIn)

/-- The datapath rotates the replicated operand to the left. -/
theorem rot_eq : i.rot = i.repl32.rotateLeft i.rotCount.toNat := by
  apply BitVec.eq_of_getLsbD_eq
  intro j hj
  rw [i.getLsbD_rot hj, getLsbD_rotateLeft _ _ hj, Nat.mod_eq_of_lt i.rotCount.isLt]

variable {i}

/-- The result of an instruction that inserts under the two masks. -/
theorem getLsbD_result_insert {j : Nat} (h1 : i.outputMode1 = false) (hj : j < 64) :
    i.result.getLsbD j =
      if (if i.outputMode0 then i.mr.getLsbD j || i.ml.getLsbD j
        else i.mr.getLsbD j && i.ml.getLsbD j)
      then i.rot.getLsbD j else i.ra.getLsbD j := by
  unfold result
  rw [h1]
  cases i.outputMode0 <;> cases hr : i.mr.getLsbD j <;> cases hl : i.ml.getLsbD j <;>
    simp only [BitVec.getLsbD_or, BitVec.getLsbD_and, BitVec.getLsbD_not, hr, hl, hj] <;>
    simp

/-- The result of an instruction that fills what the right mask leaves free. -/
theorem getLsbD_result_fill {j : Nat} (h1 : i.outputMode1 = true) (hj : j < 64) :
    i.result.getLsbD j = if i.mr.getLsbD j then i.rot.getLsbD j else i.outputMode0 := by
  unfold result
  rw [h1]
  cases i.outputMode0 <;> cases hr : i.mr.getLsbD j <;>
    simp only [BitVec.getLsbD_or, BitVec.getLsbD_and, BitVec.getLsbD_not, hr, hj] <;>
    simp

end RotatorIn

end Microwatt.Rotator
