import Microwatt.Execute1.Stage2
import Microwatt.Lib.Bits

/-!
# Carry, overflow and comparison

The part of the process `execute1_dp` with the main adder, the comparator and the result that goes
to the CR.  The comparator is cut at bit 31 and serves both widths; the carry out of the lower word
is found from the sum of the whole operands.
-/

namespace Microwatt.Execute1

/-! ## Functions of `ppc_fx_insns.vhdl` -/

/-- `ppc_adde`. -/
def ppcAdde (ra rb : BitVec 64) (carry : Bool) : BitVec 65 :=
  ra.setWidth 65 + rb.setWidth 65 + (BitVec.ofBool carry).setWidth 65

/-- `ppc_signed_compare`. -/
def ppcSignedCompare (a b : BitVec 64) (so : Bool) : BitVec 4 :=
  (if a.slt b then 0b100#3 else if b.slt a then 0b010#3 else 0b001#3) ++ BitVec.ofBool so

/-- `ppc_unsigned_compare`. -/
def ppcUnsignedCompare (a b : BitVec 64) (so : Bool) : BitVec 4 :=
  (if a.ult b then 0b100#3 else if b.ult a then 0b010#3 else 0b001#3) ++ BitVec.ofBool so

/-- `ppc_cmp`. -/
def ppcCmp (l : Bool) (ra rb : BitVec 64) (so : Bool) : BitVec 4 :=
  let tmpa := if !l then (ra.extractLsb' 0 32).signExtend 64 else ra
  let tmpb := if !l then (rb.extractLsb' 0 32).signExtend 64 else rb
  ppcSignedCompare tmpa tmpb so

/-- `ppc_cmpi`. -/
def ppcCmpi (l : Bool) (ra : BitVec 64) (si : BitVec 16) (so : Bool) : BitVec 4 :=
  let tmp := if !l then (ra.extractLsb' 0 32).signExtend 64 else ra
  ppcSignedCompare tmp (si.signExtend 64) so

/-- `ppc_cmpl`. -/
def ppcCmpl (l : Bool) (ra rb : BitVec 64) (so : Bool) : BitVec 4 :=
  let tmpa := if !l then (ra.extractLsb' 0 32).setWidth 64 else ra
  let tmpb := if !l then (rb.extractLsb' 0 32).setWidth 64 else rb
  ppcUnsignedCompare tmpa tmpb so

/-- `ppc_cmpli`. -/
def ppcCmpli (l : Bool) (ra : BitVec 64) (si : BitVec 16) (so : Bool) : BitVec 4 :=
  let tmp := if !l then (ra.extractLsb' 0 32).setWidth 64 else ra
  ppcUnsignedCompare tmp (si.setWidth 64) so

/-- `ppc_cmprb`. -/
def ppcCmprb (ra rb : BitVec 64) (l : Bool) : BitVec 4 :=
  let v := ra.extractLsb' 0 8
  let within (lo hi : BitVec 8) : Bool := lo ≤ v && v ≤ hi
  let hit := within (rb.extractLsb' 0 8) (rb.extractLsb' 8 8) ||
    (l && within (rb.extractLsb' 16 8) (rb.extractLsb' 24 8))
  0#1 ++ BitVec.ofBool hit ++ 0#2

/-- `ppc_cmpeqb`. -/
def ppcCmpeqb (ra rb : BitVec 64) : BitVec 4 :=
  let hit := (List.range 8).any fun i => ra.extractLsb' 0 8 == rb.extractLsb' (i * 8) 8
  0#1 ++ BitVec.ofBool hit ++ 0#2

/-! ## Fields of the CR -/

/-- `num_to_fxm`. -/
def numToFxm (num : BitVec 3) : BitVec 8 := 0b10000000#8 >>> num.toNat

/-- `fxm_to_num`. -/
def fxmToNum (fxm : BitVec 8) : BitVec 3 :=
  (List.range 7).foldr (fun i num => if fxm.getLsbD (7 - i) then BitVec.ofNat 3 i else num) 7

/-- The bits of a field, counted from the right. -/
def crNibble (cr : BitVec 32) (i : Nat) : BitVec 4 := cr.extractLsb' (i * 4) 4

/-- A CR with these fields. -/
def crOfNibbles (f : Nat → BitVec 4) : BitVec 32 :=
  f 7 ++ f 6 ++ f 5 ++ f 4 ++ f 3 ++ f 2 ++ f 1 ++ f 0

theorem crNibble_crOfNibbles (f : Nat → BitVec 4) {i : Nat} (hi : i < 8) :
    crNibble (crOfNibbles f) i = f i := by
  apply BitVec.eq_of_getLsbD_eq
  intro k hk
  unfold crNibble crOfNibbles
  interval_cases i <;> simp <;> grind

def insnBf (insn : BitVec 32) : BitVec 3 := insn.extractLsb' 23 3
def insnBfa (insn : BitVec 32) : BitVec 3 := insn.extractLsb' 18 3
def insnBt (insn : BitVec 32) : BitVec 5 := insn.extractLsb' 21 5
def insnBa (insn : BitVec 32) : BitVec 5 := insn.extractLsb' 16 5
def insnBb (insn : BitVec 32) : BitVec 5 := insn.extractLsb' 11 5
def insnFxm (insn : BitVec 32) : BitVec 8 := insn.extractLsb' 12 8
def insnL (insn : BitVec 32) : Bool := insn.getLsbD 21

/-! ## `execute1_dp` -/

/-- What the data path reads apart from `Decoded`. -/
structure Operands where
  /-- `read_data1`. -/
  aIn : BitVec 64
  invertA : Bool
  isSigned : Bool
  xercIn : XerCommon
  rotatorCarry : Bool

/-- `decode_input_carry`. -/
def decodeInputCarry (ic : CarryIn) (xerc : XerCommon) : Bool :=
  match ic with
  | .zero => false
  | .ca => xerc.ca
  | .ov => xerc.ov
  | .one => true

/-- `calc_ov`. -/
def calcOv (msbA msbB ca msbR : Bool) : Bool := (ca ^^ msbR) && !(msbA ^^ msbB)

section Adder

variable (aInv bIn : BitVec 64) (carry : Bool)

/-- `carry_32`. -/
def carry32 : Bool := (ppcAdde aInv bIn carry).getLsbD 32 ^^ aInv.getLsbD 32 ^^ bIn.getLsbD 32

/-- `carry_64`. -/
def carry64 : Bool := (ppcAdde aInv bIn carry).getLsbD 64

/-- `overflow_32`. -/
def overflow32 : Bool :=
  calcOv (aInv.getLsbD 31) (bIn.getLsbD 31) (carry32 aInv bIn carry)
    ((ppcAdde aInv bIn carry).getLsbD 31)

/-- `overflow_64`. -/
def overflow64 : Bool :=
  calcOv (aInv.getLsbD 63) (bIn.getLsbD 63) (carry64 aInv bIn carry)
    ((ppcAdde aInv bIn carry).getLsbD 63)

end Adder

/-- `trapval`, with `l` for a 64-bit comparison. -/
def trapval (l : Bool) (aIn bIn : BitVec 64) : BitVec 5 :=
  let zerolo := aIn.extractLsb' 0 32 ^^^ bIn.extractLsb' 0 32 == 0
  let zerohi := aIn.extractLsb' 32 32 ^^^ bIn.extractLsb' 32 32 == 0
  if zerolo && (!l || zerohi) then 0b00100
  else
    let aLtLo : Bool := aIn.extractLsb' 0 31 < bIn.extractLsb' 0 31
    let aLtHi : Bool := aIn.extractLsb' 31 32 < bIn.extractLsb' 31 32
    let msbA := if l then aIn.getLsbD 63 else aIn.getLsbD 31
    let msbB := if l then bIn.getLsbD 63 else bIn.getLsbD 31
    let aLt :=
      if l then aLtHi || (zerohi && aIn.getLsbD 31 == bIn.getLsbD 31 && aLtLo) else aLtLo
    if msbA != msbB then
      -- for signed, 0 is greater; for unsigned, 1 is greater
      BitVec.ofBool msbA ++ BitVec.ofBool msbB ++ 0#1 ++ BitVec.ofBool msbB ++ BitVec.ofBool msbA
    else
      BitVec.ofBool aLt ++ BitVec.ofBool (!aLt) ++ 0#1 ++ BitVec.ofBool aLt ++ BitVec.ofBool (!aLt)

section Dp

variable (e : Decoded) (o : Operands)

/-- `a_inv`. -/
def aInv : BitVec 64 := if !o.invertA then o.aIn else ~~~o.aIn

/-- The carry into the main adder. -/
def carryIn : Bool := decodeInputCarry e.inputCarry o.xercIn

/-- `trapval` for an instruction. -/
def insnTrapval : BitVec 5 :=
  trapval (if e.op = .cmp then insnL e.insn else !e.is32bit) o.aIn e.readData2

/-- `newcrf`. -/
def newcrf : BitVec 4 :=
  let tv := insnTrapval e o
  match e.subSelect with
  | 0b000 =>
    if o.isSigned then tv.extractLsb' 2 3 ++ BitVec.ofBool o.xercIn.so
    else tv.extractLsb' 0 2 ++ tv.extractLsb' 2 1 ++ BitVec.ofBool o.xercIn.so
  | 0b001 => ppcCmprb o.aIn e.readData2 (insnL e.insn)
  | 0b010 => ppcCmpeqb o.aIn e.readData2
  | 0b011 =>
    let crf := crNibble e.cr (7 - (insnBf e.insn).toNat)
    let btnum := 3 - ((insnBt e.insn).extractLsb' 0 2).toNat
    let operands := BitVec.ofBool (e.cr.getLsbD (31 - (insnBa e.insn).toNat)) ++
      BitVec.ofBool (e.cr.getLsbD (31 - (insnBb e.insn).toNat))
    let crresult := e.insn.getLsbD (6 + operands.toNat)
    (crf &&& ~~~(1#4 <<< btnum)) ||| ((BitVec.ofBool crresult).setWidth 4 <<< btnum)
  | 0b100 => crNibble e.cr (7 - (insnBfa e.insn).toNat)
  | 0b101 =>
    BitVec.ofBool o.xercIn.ov ++ BitVec.ofBool o.xercIn.ov32 ++ BitVec.ofBool o.xercIn.ca ++
      BitVec.ofBool o.xercIn.ca32
  | _ => 0

/-- `write_cr_mask`. -/
def writeCrMask : BitVec 8 :=
  if e.op = .mtcrf then
    if !e.insn.getLsbD 20 then insnFxm e.insn else numToFxm (fxmToNum (insnFxm e.insn))
  else if e.outputCr then numToFxm (insnBf e.insn)
  else 0

/-- `write_cr_data`. -/
def writeCrData : BitVec 32 :=
  crOfNibbles fun i =>
    if !(writeCrMask e).getLsbD i then crNibble e.cr i
    else if e.op = .mtcrf then e.readData3.extractLsb' (i * 4) 4
    else newcrf e o

/-- The results that `execute1_actions` uses. -/
def datapath : Datapath where
  carry32 := carry32 (aInv o) e.readData2 (carryIn e o)
  carry64 := carry64 (aInv o) e.readData2 (carryIn e o)
  overflow32 := overflow32 (aInv o) e.readData2 (carryIn e o)
  overflow64 := overflow64 (aInv o) e.readData2 (carryIn e o)
  rotatorCarry := o.rotatorCarry
  trapval := insnTrapval e o
  writeCrData := writeCrData e o
  writeCrMask := writeCrMask e
  xercIn := o.xercIn

end Dp

/-! ## The adder -/

theorem getLsbD_ppcAdde (a b : BitVec 64) (c : Bool) {i : Nat} (hi : i < 65) :
    (ppcAdde a b c).getLsbD i = (a.getLsbD i ^^ b.getLsbD i ^^ BitVec.carry i a b c) := by
  unfold ppcAdde
  rw [BitVec.getLsbD_add_add_bool hi]
  have hcarry : BitVec.carry i (a.setWidth 65) (b.setWidth 65) c = BitVec.carry i a b c := by
    rw [BitVec.carry, BitVec.carry, BitVec.toNat_setWidth_of_le (by decide),
      BitVec.toNat_setWidth_of_le (by decide)]
  rw [hcarry]
  simp [hi]

theorem carry_eq (w : Nat) (a b : BitVec 64) (c : Bool) :
    BitVec.carry w a b c =
      decide (2 ^ w ≤ (a.setWidth w).toNat + (b.setWidth w).toNat + c.toNat) := by
  simp [BitVec.carry]

theorem carry32_eq (a b : BitVec 64) (c : Bool) : carry32 a b c = BitVec.carry 32 a b c := by
  unfold carry32
  rw [getLsbD_ppcAdde a b c (by decide)]
  cases a.getLsbD 32 <;> cases b.getLsbD 32 <;> simp

theorem carry64_eq (a b : BitVec 64) (c : Bool) : carry64 a b c = BitVec.carry 64 a b c := by
  unfold carry64
  rw [getLsbD_ppcAdde a b c (by decide)]
  simp

/-- The overflow of two words, from their highest bits, the sum of the rest and the carry. -/
theorem calcOv_eq {n u v : Nat} (p q c : Bool) (hu : u < 2 ^ n) (hv : v < 2 ^ n) :
    calcOv p q (decide (2 ^ (n + 1) ≤ u + p.toNat * 2 ^ n + (v + q.toNat * 2 ^ n) + c.toNat))
        (p ^^ q ^^ decide (2 ^ n ≤ u + v + c.toNat)) =
      decide ((u - p.toNat * 2 ^ n + (v - q.toNat * 2 ^ n) + c.toNat : Int) < -2 ^ n ∨
        2 ^ n ≤ (u - p.toNat * 2 ^ n + (v - q.toNat * 2 ^ n) + c.toNat : Int)) := by
  have hpow : (2 : Nat) ^ (n + 1) = 2 * 2 ^ n := by ring
  have hcast : ((2 : Int) ^ n) = ((2 ^ n : Nat) : Int) := by simp
  rw [hpow, hcast]
  generalize 2 ^ n = m at hu hv
  have hc : c.toNat ≤ 1 := Bool.toNat_le c
  generalize c.toNat = k at hc
  unfold calcOv
  cases p <;> cases q
  case false.false =>
    have hno : ¬2 * m ≤ u + v + k := by omega
    by_cases h : m ≤ u + v + k
    · simp [h, hno]
      omega
    · simp [h, hno]
      omega
  case true.true =>
    have hyes : 2 * m ≤ u + m + (v + m) + k := by omega
    by_cases h : m ≤ u + v + k
    · simp [h, hyes]
      omega
    · simp [h, hyes]
      omega
  all_goals
    simp
    omega

section Word

variable {n : Nat} (a : BitVec 64)

theorem toNat_word :
    (a.setWidth (n + 1)).toNat = a.toNat % 2 ^ n + (a.getLsbD n).toNat * 2 ^ n := by
  rw [BitVec.toNat_setWidth, Nat.mod_pow_succ, Bits.getLsbD_eq_div]
  rcases Nat.mod_two_eq_zero_or_one (a.toNat / 2 ^ n) with h | h <;> simp [h]

theorem toInt_word : (a.setWidth (n + 1)).toInt =
    (a.toNat % 2 ^ n : Nat) - (a.getLsbD n).toNat * 2 ^ n := by
  have hmsb : (a.setWidth (n + 1)).msb = a.getLsbD n := by simp [BitVec.msb_eq_getLsbD_last]
  rw [BitVec.toInt_eq_msb_cond, hmsb, toNat_word]
  cases a.getLsbD n
  · simp
  · simp only [if_true, Bool.toNat_true, one_mul, Nat.cast_add, Nat.cast_pow, Nat.cast_ofNat]
    ring

end Word

/-- A number is not a signed integer of `w` bits. -/
def Overflows (w : Nat) (x : Int) : Prop := x < -2 ^ (w - 1) ∨ 2 ^ (w - 1) ≤ x

instance (w : Nat) (x : Int) : Decidable (Overflows w x) := inferInstanceAs (Decidable (_ ∨ _))

/-- The overflow flag of the lowest `n + 1` bits. -/
theorem calcOv_ppcAdde {n : Nat} (hn : n < 64) (a b : BitVec 64) (c : Bool) :
    calcOv (a.getLsbD n) (b.getLsbD n) (BitVec.carry (n + 1) a b c)
        ((ppcAdde a b c).getLsbD n) =
      decide (Overflows (n + 1)
        ((a.setWidth (n + 1)).toInt + (b.setWidth (n + 1)).toInt + c.toNat)) := by
  have hlt (x : BitVec 64) : x.toNat % 2 ^ n < 2 ^ n := Nat.mod_lt _ (by positivity)
  rw [getLsbD_ppcAdde a b c (by omega), carry_eq, toNat_word, toNat_word, toInt_word, toInt_word,
    BitVec.carry]
  exact calcOv_eq _ _ _ (hlt a) (hlt b)

/-- The sum of the add and the subtract-from families, as a number. -/
def exactSum (invertA : Bool) (ra rb : Int) (carry : Bool) : Int :=
  if invertA then rb - ra + carry.toNat - 1 else ra + rb + carry.toNat

/-- The carry out of `w` bits.  With RA inverted `2 ^ w - 1 - ra` is added in place of `-ra - 1`,
which is `2 ^ w` more. -/
def CarriesOut (w : Nat) (invertA : Bool) (x : Int) : Prop :=
  if invertA then 0 ≤ x else 2 ^ w ≤ x

instance (w : Nat) (invertA : Bool) (x : Int) : Decidable (CarriesOut w invertA x) :=
  inferInstanceAs (Decidable (if invertA = true then 0 ≤ x else 2 ^ w ≤ x))

theorem toInt_not_word {n : Nat} (x : BitVec (n + 1)) : (~~~x).toInt = -x.toInt - 1 := by
  have hlt := x.isLt
  rw [BitVec.toInt_eq_toNat_cond, BitVec.toInt_eq_toNat_cond, BitVec.toNat_not]
  generalize x.toNat = v at hlt ⊢
  rw [Nat.pow_succ] at hlt ⊢
  generalize 2 ^ n = m at hlt ⊢
  split_ifs <;> omega

section Inverted

variable (o : Operands) (b : BitVec 64) (c : Bool)

theorem carry_aInv {w : Nat} (hw : w ≤ 64) :
    BitVec.carry w (aInv o) b c =
      decide (CarriesOut w o.invertA
        (exactSum o.invertA (o.aIn.setWidth w).toNat (b.setWidth w).toNat c)) := by
  rw [carry_eq, decide_eq_decide]
  unfold CarriesOut exactSum aInv
  cases o.invertA
  · simp only [Bool.not_false, if_true, Bool.false_eq_true, if_false]
    norm_cast
  · simp only [Bool.not_true, Bool.false_eq_true, if_false, if_true]
    rw [BitVec.setWidth_not hw, BitVec.toNat_not]
    have hlt := (o.aIn.setWidth w).isLt
    generalize (o.aIn.setWidth w).toNat = x at hlt ⊢
    generalize (2 : Nat) ^ w = m at hlt ⊢
    omega

theorem overflow_aInv {n : Nat} (hn : n < 64) :
    calcOv ((aInv o).getLsbD n) (b.getLsbD n) (BitVec.carry (n + 1) (aInv o) b c)
        ((ppcAdde (aInv o) b c).getLsbD n) =
      decide (Overflows (n + 1)
        (exactSum o.invertA (o.aIn.setWidth (n + 1)).toInt (b.setWidth (n + 1)).toInt c)) := by
  rw [calcOv_ppcAdde hn, decide_eq_decide]
  unfold exactSum aInv
  cases o.invertA
  · simp
  · simp only [Bool.not_true, Bool.false_eq_true, if_false, if_true]
    rw [BitVec.setWidth_not (by omega), toInt_not_word]
    have hsum : ∀ x y : Int, -x - 1 + y + c.toNat = y - x + c.toNat - 1 := by
      intro x y
      ring
    rw [hsum]

end Inverted

/-! ## The comparator -/

/-- The five conditions of two numbers, signed and unsigned. -/
def orderBits (x y : Int) (u v : Nat) : BitVec 5 :=
  BitVec.ofBool (x < y) ++ BitVec.ofBool (y < x) ++ BitVec.ofBool (x = y) ++
    BitVec.ofBool (u < v) ++ BitVec.ofBool (v < u)

section Order

variable {n : Nat} (a b : BitVec 64)

theorem toNat_word_lt : (a.setWidth (n + 1)).toNat < (b.setWidth (n + 1)).toNat ↔
    if a.getLsbD n = b.getLsbD n then a.toNat % 2 ^ n < b.toNat % 2 ^ n
    else b.getLsbD n = true := by
  have hlt (x : BitVec 64) : x.toNat % 2 ^ n < 2 ^ n := Nat.mod_lt _ (by positivity)
  have ha := hlt a
  have hb := hlt b
  rw [toNat_word, toNat_word]
  cases a.getLsbD n <;> cases b.getLsbD n <;> simp <;> omega

theorem toInt_word_lt : (a.setWidth (n + 1)).toInt < (b.setWidth (n + 1)).toInt ↔
    if a.getLsbD n = b.getLsbD n then a.toNat % 2 ^ n < b.toNat % 2 ^ n
    else a.getLsbD n = true := by
  have hlt (x : BitVec 64) : x.toNat % 2 ^ n < 2 ^ n := Nat.mod_lt _ (by positivity)
  have ha := hlt a
  have hb := hlt b
  have hcast : ((2 : Int) ^ n) = ((2 ^ n : Nat) : Int) := by simp
  rw [toInt_word, toInt_word, hcast]
  generalize 2 ^ n = m at ha hb ⊢
  cases a.getLsbD n <;> cases b.getLsbD n <;> simp <;> omega

/-- The conditions from the highest bits and the rest of the operands. -/
theorem orderBits_eq :
    orderBits (a.setWidth (n + 1)).toInt (b.setWidth (n + 1)).toInt
        (a.setWidth (n + 1)).toNat (b.setWidth (n + 1)).toNat =
      if a.setWidth (n + 1) = b.setWidth (n + 1) then 0b00100
      else if a.getLsbD n != b.getLsbD n then
        BitVec.ofBool (a.getLsbD n) ++ BitVec.ofBool (b.getLsbD n) ++ 0#1 ++
          BitVec.ofBool (b.getLsbD n) ++ BitVec.ofBool (a.getLsbD n)
      else
        BitVec.ofBool (a.toNat % 2 ^ n < b.toNat % 2 ^ n) ++
          BitVec.ofBool (!decide (a.toNat % 2 ^ n < b.toNat % 2 ^ n)) ++ 0#1 ++
          BitVec.ofBool (a.toNat % 2 ^ n < b.toNat % 2 ^ n) ++
          BitVec.ofBool (!decide (a.toNat % 2 ^ n < b.toNat % 2 ^ n)) := by
  unfold orderBits
  by_cases heq : a.setWidth (n + 1) = b.setWidth (n + 1)
  · rw [if_pos heq, heq]
    simp
  · rw [if_neg heq]
    have hne : (a.setWidth (n + 1)).toNat ≠ (b.setWidth (n + 1)).toNat :=
      fun h => heq (BitVec.eq_of_toNat_eq h)
    have hneInt : (a.setWidth (n + 1)).toInt ≠ (b.setWidth (n + 1)).toInt :=
      fun h => heq (BitVec.eq_of_toInt_eq h)
    rw [toNat_word, toNat_word] at hne
    rw [decide_eq_false hneInt]
    simp only [toInt_word_lt, toNat_word_lt]
    by_cases hmsb : a.getLsbD n = b.getLsbD n
    · have hswap : decide (b.toNat % 2 ^ n < a.toNat % 2 ^ n) =
          !decide (a.toNat % 2 ^ n < b.toNat % 2 ^ n) := by
        rw [← decide_not, decide_eq_decide]
        rw [hmsb] at hne
        omega
      simp [hmsb, hswap]
    · cases ha : a.getLsbD n <;> cases hb : b.getLsbD n <;> simp_all

end Order

theorem xor_beq_zero {w : Nat} (x y : BitVec w) : (x ^^^ y == 0) = decide (x = y) := by
  rw [Bool.eq_iff_iff, beq_iff_eq, decide_eq_true_eq]
  exact BitVec.xor_eq_zero_iff

/-- The comparison of the lower 63 bits from the halves. -/
theorem halves_lt {a b : BitVec 64} (hmsb : a.getLsbD 63 = b.getLsbD 63) :
    (decide (a.extractLsb' 31 32 < b.extractLsb' 31 32) ||
      ((a.extractLsb' 32 32 ^^^ b.extractLsb' 32 32 == 0) && a.getLsbD 31 == b.getLsbD 31 &&
        decide (a.extractLsb' 0 31 < b.extractLsb' 0 31))) =
      decide (a.toNat % 2 ^ 63 < b.toNat % 2 ^ 63) := by
  have ha := a.isLt
  have hb := b.isLt
  rw [Bool.eq_iff_iff]
  simp only [xor_beq_zero, Bool.or_eq_true, Bool.and_eq_true, decide_eq_true_eq, beq_iff_eq]
  simp only [BitVec.lt_def, ← BitVec.toNat_inj, BitVec.extractLsb'_toNat, Nat.shiftRight_eq_div_pow]
  rw [Bool.eq_iff_iff] at hmsb ⊢
  simp only [Bits.getLsbD_eq_div, decide_eq_true_eq] at hmsb ⊢
  omega

/-- The operands of a comparison are words of this size. -/
def cmpWidth (l : Bool) : Nat := if l then 64 else 32

theorem trapval_eq (l : Bool) (a b : BitVec 64) :
    trapval l a b =
      orderBits (a.setWidth (cmpWidth l)).toInt (b.setWidth (cmpWidth l)).toInt
        (a.setWidth (cmpWidth l)).toNat (b.setWidth (cmpWidth l)).toNat := by
  unfold trapval
  cases l
  case false =>
    rw [show cmpWidth false = 31 + 1 from rfl, orderBits_eq]
    simp only [Bool.not_false, Bool.true_or, Bool.and_true, Bool.false_eq_true, if_false]
    have hlo : (a.extractLsb' 0 32 ^^^ b.extractLsb' 0 32 == 0) = true ↔
        a.setWidth (31 + 1) = b.setWidth (31 + 1) := by
      rw [xor_beq_zero, decide_eq_true_eq, ← BitVec.toNat_inj, ← BitVec.toNat_inj]
      simp
    have hlt : (a.extractLsb' 0 31 < b.extractLsb' 0 31) ↔
        a.toNat % 2 ^ 31 < b.toNat % 2 ^ 31 := by
      simp [BitVec.lt_def]
    simp only [hlo, hlt]
  case true =>
    rw [show cmpWidth true = 63 + 1 from rfl, orderBits_eq]
    simp only [Bool.not_true, Bool.false_or, if_true]
    have hall : (a.extractLsb' 0 32 ^^^ b.extractLsb' 0 32 == 0 &&
        a.extractLsb' 32 32 ^^^ b.extractLsb' 32 32 == 0) = true ↔
        a.setWidth (63 + 1) = b.setWidth (63 + 1) := by
      have ha := a.isLt
      have hb := b.isLt
      simp only [xor_beq_zero, Bool.and_eq_true, decide_eq_true_eq, ← BitVec.toNat_inj,
        BitVec.extractLsb'_toNat, Nat.shiftRight_eq_div_pow, BitVec.setWidth_eq]
      omega
    by_cases hmsb : a.getLsbD 63 = b.getLsbD 63
    · simp only [hall, halves_lt hmsb]
    · have hdiff : (a.getLsbD 63 != b.getLsbD 63) = true := by simpa using hmsb
      simp only [hall, if_pos hdiff]

/-! ## Comparisons -/

/-- The instructions that compare registers or a register and a constant. -/
inductive CmpInsn where
  | cmp | cmpi | cmpl | cmpli
deriving DecidableEq

/-- The column `is_signed` of the decode table. -/
def CmpInsn.isSigned : CmpInsn → Bool
  | .cmp => true
  | .cmpi => true
  | .cmpl => false
  | .cmpli => false

/-- The constant that stands in place of RB. -/
def CmpInsn.constant (insn : BitVec 32) : CmpInsn → Option (BitVec 64)
  | .cmp => none
  | .cmpi => some ((insn.extractLsb' 0 16).signExtend 64)
  | .cmpl => none
  | .cmpli => some ((insn.extractLsb' 0 16).setWidth 64)

/-- A comparison as the decoder passes it on. -/
structure CmpInsn.Decodes (i : CmpInsn) (e : Decoded) (o : Operands) : Prop where
  op : e.op = .cmp
  subSelect : e.subSelect = 0b000
  outputCr : e.outputCr = true
  isSigned : o.isSigned = i.isSigned
  readData2 : ∀ c ∈ i.constant e.insn, e.readData2 = c

/-- What `ppc_fx_insns.vhdl` has for the instruction. -/
def CmpInsn.result (i : CmpInsn) (insn : BitVec 32) (ra rb : BitVec 64) (so : Bool) : BitVec 4 :=
  match i with
  | .cmp => ppcCmp (insnL insn) ra rb so
  | .cmpi => ppcCmpi (insnL insn) ra (insn.extractLsb' 0 16) so
  | .cmpl => ppcCmpl (insnL insn) ra rb so
  | .cmpli => ppcCmpli (insnL insn) ra (insn.extractLsb' 0 16) so

section Fields

variable (x y : Int) (u v : Nat)

theorem orderBits_signed : (orderBits x y u v).extractLsb' 2 3 =
    if x < y then 0b100#3 else if y < x then 0b010#3 else 0b001#3 := by
  have hbits : ∀ p q r s t : Bool,
      (BitVec.ofBool p ++ BitVec.ofBool q ++ BitVec.ofBool r ++ BitVec.ofBool s ++
        BitVec.ofBool t).extractLsb' 2 3 = BitVec.ofBool p ++ BitVec.ofBool q ++
          BitVec.ofBool r := by
    decide
  unfold orderBits
  rw [hbits]
  rcases lt_trichotomy x y with h | h | h
  · simp [h, h.ne, h.not_gt]
  · simp [h]
  · simp [h, h.ne', h.not_gt]

theorem orderBits_unsigned (h : x = y ↔ u = v) :
    (orderBits x y u v).extractLsb' 0 2 ++ (orderBits x y u v).extractLsb' 2 1 =
      if u < v then 0b100#3 else if v < u then 0b010#3 else 0b001#3 := by
  have hbits : ∀ p q r s t : Bool,
      (BitVec.ofBool p ++ BitVec.ofBool q ++ BitVec.ofBool r ++ BitVec.ofBool s ++
          BitVec.ofBool t).extractLsb' 0 2 ++
        (BitVec.ofBool p ++ BitVec.ofBool q ++ BitVec.ofBool r ++ BitVec.ofBool s ++
          BitVec.ofBool t).extractLsb' 2 1 = BitVec.ofBool s ++ BitVec.ofBool t ++
            BitVec.ofBool r := by
    decide
  unfold orderBits
  have heq : decide (x = y) = decide (u = v) := decide_eq_decide.mpr h
  rw [hbits, heq]
  rcases lt_trichotomy u v with hlt | hsame | hlt
  · simp [hlt, hlt.ne, hlt.not_gt]
  · simp [hsame]
  · simp [hlt, hlt.ne', hlt.not_gt]

end Fields

section Compare

variable {e : Decoded} {o : Operands}

/-- A signed comparison of words of the chosen size. -/
theorem signedCompare_eq (l : Bool) (a b : BitVec 64) (so : Bool) :
    (trapval l a b).extractLsb' 2 3 ++ BitVec.ofBool so =
      ppcSignedCompare (if !l then (a.extractLsb' 0 32).signExtend 64 else a)
        (if !l then (b.extractLsb' 0 32).signExtend 64 else b) so := by
  rw [trapval_eq, orderBits_signed]
  unfold ppcSignedCompare
  simp only [BitVec.slt_iff_toInt_lt]
  have hext (x : BitVec 64) :
      ((x.extractLsb' 0 32).signExtend 64).toInt = (x.setWidth 32).toInt := by
    rw [BitVec.toInt_signExtend_of_le (by decide)]
    simp [BitVec.extractLsb', BitVec.toInt_eq_toNat_cond]
  cases l
  · simp only [Bool.not_false, if_true, hext]
    rfl
  · simp [cmpWidth]

theorem unsignedCompare_eq (l : Bool) (a b : BitVec 64) (so : Bool) :
    (trapval l a b).extractLsb' 0 2 ++ (trapval l a b).extractLsb' 2 1 ++ BitVec.ofBool so =
      ppcUnsignedCompare (if !l then (a.extractLsb' 0 32).setWidth 64 else a)
        (if !l then (b.extractLsb' 0 32).setWidth 64 else b) so := by
  rw [trapval_eq, orderBits_unsigned _ _ _ _ (by rw [BitVec.toInt_inj, BitVec.toNat_inj])]
  unfold ppcUnsignedCompare
  simp only [BitVec.ult_iff_toNat_lt]
  have hext (x : BitVec 64) :
      ((x.extractLsb' 0 32).setWidth 64).toNat = (x.setWidth 32).toNat := by
    rw [BitVec.toNat_setWidth_of_le (by decide)]
    simp
  cases l
  · simp only [Bool.not_false, if_true, hext]
    rfl
  · simp [cmpWidth]

theorem signExtend_extract (si : BitVec 16) :
    ((si.signExtend 64).extractLsb' 0 32).signExtend 64 = si.signExtend 64 := by
  apply BitVec.eq_of_getLsbD_eq
  intro k hk
  simp [BitVec.getLsbD_signExtend, BitVec.msb_eq_getLsbD_last]
  grind

theorem setWidth_extract (si : BitVec 16) :
    ((si.setWidth 64).extractLsb' 0 32).setWidth 64 = si.setWidth 64 := by
  apply BitVec.eq_of_getLsbD_eq
  intro k hk
  simp
  grind

/-- The field that a comparison writes. -/
theorem CmpInsn.Decodes.newcrf {i : CmpInsn} (h : i.Decodes e o) :
    newcrf e o = i.result e.insn o.aIn e.readData2 o.xercIn.so := by
  unfold Execute1.newcrf insnTrapval
  rw [h.subSelect, if_pos h.op, h.isSigned]
  have hconst := h.readData2
  cases i
  case cmp => exact signedCompare_eq _ _ _ _
  case cmpi =>
    refine (signedCompare_eq _ _ _ _).trans ?_
    rw [hconst _ rfl, signExtend_extract, ite_self]
    rfl
  case cmpl => exact unsignedCompare_eq _ _ _ _
  case cmpli =>
    refine (unsignedCompare_eq _ _ _ _).trans ?_
    rw [hconst _ rfl, setWidth_extract, ite_self]
    rfl

end Compare

section Actions

variable (hasFpu : Bool) (ctrl : Ctrl) (msr : BitVec 64) (e : Decoded) (dp : Datapath)
  (ramsprOdd : BitVec 64) (fpException : Bool)

/-- An exception that prevents execution leaves the flags of the draft alone. -/
theorem exceptions_flags (d : Draft) :
    (exceptions hasFpu ctrl msr e d).e.xerc = d.v.e.xerc ∧
      (exceptions hasFpu ctrl msr e d).e.writeCrData = d.v.e.writeCrData ∧
      (exceptions hasFpu ctrl msr e d).e.writeCrMask = d.v.e.writeCrMask ∧
      (exceptions hasFpu ctrl msr e d).e.writeCrEnable = d.v.e.writeCrEnable := by
  have hkeep {α : Type} (f : Execute1ToWriteback → α) (hf : ∀ (v : Actions) vec srr1 hv,
      f { v.e with intrVec := vec, srr1 := srr1, hvIntr := hv } = f v.e) :
      f (exceptions hasFpu ctrl msr e d).e = f d.v.e :=
    exceptions_keeps hasFpu ctrl msr e (fun v => f v.e) d fun v _ _ _ _ _ _ _ => hf v _ _ _
  exact ⟨hkeep _ fun _ _ _ _ => rfl, hkeep _ fun _ _ _ _ => rfl, hkeep _ fun _ _ _ _ => rfl,
    hkeep _ fun _ _ _ _ => rfl⟩

theorem cmp_writeCr (h : e.op = .cmp) :
    let v := execute1Actions hasFpu ctrl msr e dp ramsprOdd fpException
    v.e.writeCrData = dp.writeCrData ∧ v.e.writeCrMask = dp.writeCrMask ∧
      v.e.writeCrEnable = (e.outputCr || e.rc) := by
  obtain ⟨-, hdata, hmask, henable⟩ := exceptions_flags hasFpu ctrl msr e
    (opActions hasFpu ctrl msr e dp ramsprOdd fpException (defaultActions ctrl msr e dp ramsprOdd))
  refine ⟨hdata.trans ?_, hmask.trans ?_, henable.trans ?_⟩
  all_goals
    unfold opActions
    rw [h]
    rfl

theorem add_xerc (h : e.op = .add) :
    (execute1Actions hasFpu ctrl msr e dp ramsprOdd fpException).e.xerc =
      if e.oe then setOv (carryOut e dp dp.xercIn) dp.overflow64 dp.overflow32
      else carryOut e dp dp.xercIn := by
  refine (exceptions_flags hasFpu ctrl msr e _).1.trans ?_
  unfold opActions
  rw [h]
  rfl

end Actions

theorem getLsbD_numToFxm (bf : BitVec 3) {k : Nat} (hk : k < 8) :
    (numToFxm bf).getLsbD (7 - k) = decide (k = bf.toNat) := by
  revert bf
  interval_cases k <;> decide

/-- The add and subtract-from families. -/
inductive AddInsn where
  | add | addc | adde | addex | addi | addic | addicDot | addis | addme | addpcis | addze
  | neg | paddi | subf | subfc | subfe | subfic | subfme | subfze
deriving DecidableEq

/-- The columns `invert_a`, `input_carry` and `output_carry` of the decode table, and whether `rc`
is `RCOE`. -/
def AddInsn.row : AddInsn → Bool × CarryIn × Bool × Bool
  | .add => (false, .zero, false, true)
  | .addc => (false, .zero, true, true)
  | .adde => (false, .ca, true, true)
  | .addex => (false, .ov, true, false)
  | .addi => (false, .zero, false, false)
  | .addic => (false, .zero, true, false)
  | .addicDot => (false, .zero, true, false)
  | .addis => (false, .zero, false, false)
  | .addme => (false, .ca, true, true)
  | .addpcis => (false, .zero, false, false)
  | .addze => (false, .ca, true, true)
  | .neg => (true, .one, false, true)
  | .paddi => (false, .zero, false, false)
  | .subf => (true, .one, false, true)
  | .subfc => (true, .one, true, true)
  | .subfe => (true, .ca, true, true)
  | .subfic => (true, .one, true, false)
  | .subfme => (true, .ca, true, true)
  | .subfze => (true, .ca, true, true)

def AddInsn.invertA (i : AddInsn) : Bool := i.row.1
def AddInsn.inputCarry (i : AddInsn) : CarryIn := i.row.2.1
def AddInsn.outputCarry (i : AddInsn) : Bool := i.row.2.2.1
def AddInsn.rcoe (i : AddInsn) : Bool := i.row.2.2.2

/-- `insn_oe`. -/
def insnOe (insn : BitVec 32) : Bool := insn.getLsbD 10

/-- An addition or subtraction as the decoder passes it on. -/
structure AddInsn.Decodes (i : AddInsn) (e : Decoded) (o : Operands) : Prop where
  op : e.op = .add
  resultSel : e.resultSel = .add
  invertA : o.invertA = i.invertA
  inputCarry : e.inputCarry = i.inputCarry
  outputCarry : e.outputCarry = i.outputCarry
  oe : e.oe = (i.rcoe && insnOe e.insn)

/-- The carry out of `w` bits of an addition or subtraction. -/
def AddInsn.carryOf (i : AddInsn) (e : Decoded) (o : Operands) (w : Nat) : Bool :=
  CarriesOut w i.invertA (exactSum i.invertA (o.aIn.setWidth w).toNat
    (e.readData2.setWidth w).toNat (decodeInputCarry i.inputCarry o.xercIn))

/-- The overflow of `w` bits of an addition or subtraction. -/
def AddInsn.overflowOf (i : AddInsn) (e : Decoded) (o : Operands) (w : Nat) : Bool :=
  Overflows w (exactSum i.invertA (o.aIn.setWidth w).toInt (e.readData2.setWidth w).toInt
    (decodeInputCarry i.inputCarry o.xercIn))

/-- The flags in the XER after an addition or subtraction; `addex` keeps its carries in OV and
OV32. -/
def AddInsn.xerc (i : AddInsn) (e : Decoded) (o : Operands) : XerCommon :=
  let x := o.xercIn
  let oe := i.rcoe && insnOe e.insn
  let ca := i.outputCarry && i != .addex
  { ca := if ca then i.carryOf e o 64 else x.ca
    ca32 := if ca then i.carryOf e o 32 else x.ca32
    ov := if i = .addex then i.carryOf e o 64 else if oe then i.overflowOf e o 64 else x.ov
    ov32 := if i = .addex then i.carryOf e o 32 else if oe then i.overflowOf e o 32 else x.ov32
    so := (oe && i.overflowOf e o 64) || x.so }

theorem AddInsn.Decodes.datapath_eq {i : AddInsn} {e : Decoded} {o : Operands} (h : i.Decodes e o) :
    (datapath e o).carry32 = i.carryOf e o 32 ∧ (datapath e o).carry64 = i.carryOf e o 64 ∧
      (datapath e o).overflow32 = i.overflowOf e o 32 ∧
      (datapath e o).overflow64 = i.overflowOf e o 64 := by
  have hcarry : carryIn e o = decodeInputCarry i.inputCarry o.xercIn := by
    rw [carryIn, h.inputCarry]
  unfold AddInsn.carryOf AddInsn.overflowOf
  rw [← h.invertA, ← hcarry]
  refine ⟨?_, ?_, ?_, ?_⟩
  · exact (carry32_eq _ _ _).trans (carry_aInv o _ _ (by decide))
  · exact (carry64_eq _ _ _).trans (carry_aInv o _ _ (by decide))
  · show overflow32 _ _ _ = _
    rw [overflow32, carry32_eq]
    exact overflow_aInv o _ _ (by decide)
  · show overflow64 _ _ _ = _
    rw [overflow64, carry64_eq]
    exact overflow_aInv o _ _ (by decide)

section Results

variable (hasFpu : Bool) (ctrl : Ctrl) (msr : BitVec 64) {e : Decoded} {o : Operands}
  (ramsprOdd : BitVec 64) (fpException : Bool)

theorem AddInsn.Decodes.xerc_eq {i : AddInsn} (h : i.Decodes e o) :
    (execute1Actions hasFpu ctrl msr e (datapath e o) ramsprOdd fpException).e.xerc =
      i.xerc e o := by
  obtain ⟨hc32, hc64, ho32, ho64⟩ := h.datapath_eq
  rw [add_xerc _ _ _ _ _ _ _ h.op]
  unfold carryOut setOv AddInsn.xerc
  rw [hc32, hc64, ho32, ho64, h.outputCarry, h.inputCarry, h.resultSel, h.oe]
  generalize i.carryOf e o 32 = c32
  generalize i.carryOf e o 64 = c64
  generalize i.overflowOf e o 32 = o32
  generalize i.overflowOf e o 64 = o64
  show (if _ then _ else _ : XerCommon) = _
  cases i <;> cases insnOe e.insn <;> rfl

/-- The field of the CR that a comparison writes and the others, which it leaves alone. -/
theorem CmpInsn.Decodes.writeCr {i : CmpInsn} (h : i.Decodes e o) :
    let v := execute1Actions hasFpu ctrl msr e (datapath e o) ramsprOdd fpException
    v.e.writeCrEnable = true ∧ v.e.writeCrMask = numToFxm (insnBf e.insn) ∧
      ∀ k < 8, crNibble v.e.writeCrData (7 - k) =
        if k = (insnBf e.insn).toNat then
          i.result e.insn o.aIn e.readData2 o.xercIn.so
        else crNibble e.cr (7 - k) := by
  obtain ⟨hdata, hmask, henable⟩ := cmp_writeCr hasFpu ctrl msr e (datapath e o) ramsprOdd
    fpException h.op
  have hfield : writeCrMask e = numToFxm (insnBf e.insn) := by
    unfold writeCrMask
    rw [h.op, h.outputCr]
    rfl
  refine ⟨?_, hmask.trans hfield, ?_⟩
  · rw [henable, h.outputCr]
    rfl
  · intro k hk
    rw [hdata]
    show crNibble (writeCrData e o) (7 - k) = _
    unfold writeCrData
    rw [crNibble_crOfNibbles _ (by omega), hfield, getLsbD_numToFxm _ hk, h.newcrf, h.op]
    by_cases hsel : k = (insnBf e.insn).toNat
    · simp [hsel]
    · simp [hsel]

end Results

/-- Comparisons, traps and the flags of the adder agree with the numbers that the operands stand
for. -/
theorem flags_exact :
    (∀ (l : Bool) (a b : BitVec 64), trapval l a b =
      orderBits (a.setWidth (cmpWidth l)).toInt (b.setWidth (cmpWidth l)).toInt
        (a.setWidth (cmpWidth l)).toNat (b.setWidth (cmpWidth l)).toNat) ∧
    ∀ (hasFpu : Bool) (ctrl : Ctrl) (msr : BitVec 64) (e : Decoded) (o : Operands)
      (ramsprOdd : BitVec 64) (fpException : Bool),
      let v := execute1Actions hasFpu ctrl msr e (datapath e o) ramsprOdd fpException
      (∀ i : CmpInsn, i.Decodes e o →
        v.e.writeCrEnable = true ∧ v.e.writeCrMask = numToFxm (insnBf e.insn) ∧
          ∀ k < 8, crNibble v.e.writeCrData (7 - k) =
            if k = (insnBf e.insn).toNat then i.result e.insn o.aIn e.readData2 o.xercIn.so
            else crNibble e.cr (7 - k)) ∧
      ∀ i : AddInsn, i.Decodes e o → v.e.xerc = i.xerc e o := by
  refine ⟨trapval_eq, ?_⟩
  intro hasFpu ctrl msr e o ramsprOdd fpException
  refine ⟨?_, ?_⟩
  · intro i h
    exact h.writeCr hasFpu ctrl msr ramsprOdd fpException
  · intro i h
    exact h.xerc_eq hasFpu ctrl msr ramsprOdd fpException

/-- `subfco` of 1 from 0: a borrow from both words. -/
def subfco : Decoded :=
  { Decoded.idle with
    op := .add
    readData2 := 0
    inputCarry := .one
    outputCarry := true
    oe := true
    insn := 0x7c000410 }

/-- `cmpd cr7` of 0 and 1. -/
def cmpd : Decoded :=
  { Decoded.idle with
    op := .cmp
    readData2 := 1
    outputCr := true
    insn := 0x7fa00000 }

theorem flags_exact_one :
    (execute1Actions false Core.cold.ctrl resetMsr subfco
        (datapath subfco ⟨1, true, false, ⟨true, true, true, true, false⟩, false⟩) 0 false).e.xerc =
      ⟨false, false, false, false, false⟩ ∧
    crNibble (execute1Actions false Core.cold.ctrl resetMsr cmpd
      (datapath cmpd ⟨0, false, true, ⟨false, false, false, false, true⟩, false⟩) 0
        false).e.writeCrData 0 = 0b1001 := by
  refine ⟨?_, ?_⟩
  · rw [(flags_exact.2 _ _ _ _ _ _ _).2 .subfc ⟨rfl, rfl, rfl, rfl, rfl, rfl⟩]
    decide
  · have h := ((flags_exact.2 false Core.cold.ctrl resetMsr cmpd
      ⟨0, false, true, ⟨false, false, false, false, true⟩, false⟩ 0 false).1 .cmp
        ⟨rfl, rfl, rfl, rfl, by simp [CmpInsn.constant]⟩).2.2 7 (by decide)
    rw [h]
    decide

end Microwatt.Execute1
