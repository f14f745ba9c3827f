import Microwatt.Divider
import Microwatt.Lib.Bits
import Microwatt.Lib.Fair

/-!
# The results of the divider

`execute1` gives the divider absolute values and the sign of the result; the divider gives back the
quotient or the remainder of the exact division.  After `t` bits of the quotient, of 65, the
registers satisfy `dend + 2 ^ 65 * d * quot = 2 ^ t * D`, for a dividend `D` and a divisor `d` whose
quotient fits in 64 bits.  If it does not, the first of the 65 bits is set and reaches the overflow
bits.
-/

namespace Microwatt.Divider

/-! ## The instructions -/

inductive DivOp where
  | div | dive | mod
deriving DecidableEq

/-- A division as it is decoded. -/
structure DivInsn where
  op : DivOp
  isSigned : Bool
  is32bit : Bool

namespace DivInsn

variable (insn : DivInsn) (a b : BitVec 64)

/-- The sign of an operand. -/
def sign (x : BitVec 64) : Bool :=
  insn.isSigned && if insn.is32bit then x.getLsbD 31 else x.getLsbD 63

/-- The absolute value of an operand. -/
def abs (x : BitVec 64) : BitVec 64 :=
  if !insn.sign x then x else -x

/-- What `execute1` gives to the divider when it starts a division. -/
def xToDivider : Execute1ToDivider where
  valid := true
  flush := false
  isSigned := insn.isSigned
  is32bit := insn.is32bit
  isModulus := decide (insn.op = .mod)
  negResult := insn.sign a ^^ (insn.sign b && !decide (insn.op = .mod))
  isExtended := !insn.is32bit && decide (insn.op = .dive)
  dividend :=
    if !insn.is32bit then insn.abs a
    else if insn.op = .dive then (insn.abs a).extractLsb' 0 32 ++ 0#32
    else 0#32 ++ (insn.abs a).extractLsb' 0 32
  divisor :=
    if !insn.is32bit then insn.abs b
    else 0#32 ++ (insn.abs b).extractLsb' 0 32

/-! What the instruction is to give -/

/-- The width of the operands. -/
def width : Nat := if insn.is32bit then 32 else 64

/-- An operand as a number. -/
def value (x : BitVec 64) : Int :=
  if insn.isSigned then (x.setWidth insn.width).toInt else (x.setWidth insn.width).toNat

/-- The dividend; the extended forms have zeroes behind RA. -/
def dividend : Int := if insn.op = .dive then insn.value a * 2 ^ insn.width else insn.value a

/-- A quotient that can be represented. -/
def Fits (q : Int) : Prop :=
  if insn.isSigned then -2 ^ (insn.width - 1) ≤ q ∧ q < 2 ^ (insn.width - 1)
  else q < 2 ^ insn.width

instance (q : Int) : Decidable (insn.Fits q) := by
  unfold Fits
  infer_instance

/-- The result and the overflow: the quotient, or the remainder with the sign of the dividend. -/
def reference : BitVec 64 × Bool :=
  let n := insn.dividend a
  let d := insn.value b
  if d = 0 then (0, true)
  else if insn.op = .mod then (BitVec.ofInt 64 (n.tmod d), false)
  else if ¬insn.Fits (n.tdiv d) then (0, true)
  else if insn.is32bit then ((BitVec.ofInt 32 (n.tdiv d)).setWidth 64, false)
  else (BitVec.ofInt 64 (n.tdiv d), false)

end DivInsn

/-! ## The division of natural numbers -/

/-- The dividend that the divider starts from. -/
def dendOf (dIn : Execute1ToDivider) : Nat :=
  if dIn.isExtended then dIn.dividend.toNat * 2 ^ 64 else dIn.dividend.toNat

/-- `t` of the 65 bits of the quotient have been done. -/
structure Counting (dIn : Execute1ToDivider) (t : Nat) (u : Divider) : Prop where
  le : t ≤ 65
  count : u.count = BitVec.ofNat 7 (t + 127)
  running : u.running = decide (t ≤ 64)
  div : u.div = dIn.divisor
  negResult : u.negResult = dIn.negResult
  isModulus : u.isModulus = dIn.isModulus
  is32bit : u.is32bit = dIn.is32bit
  isSigned : u.isSigned = dIn.isSigned

/-- The registers when the quotient fits in 64 bits. -/
structure Exact (D d t : Nat) (u : Divider) : Prop where
  equation : u.dend.toNat + 2 ^ 65 * (d * u.quot.toNat) = 2 ^ t * D
  bound : u.dend.toNat < 2 ^ 65 * d
  ovf32 : u.ovf32 = decide (2 ^ 32 ≤ u.quot.toNat)
  overflow : t = 65 → u.overflow = false

/-- The registers when it does not: the first bit of the quotient is under way to the left. -/
structure Beyond (t : Nat) (u : Divider) : Prop where
  first : 1 ≤ t → t ≤ 64 → u.quot.getLsbD (t - 1) = true
  ovf32 : 33 ≤ t → u.ovf32 = true
  overflow : t = 65 → u.overflow = true

section

variable {dIn : Execute1ToDivider} {t D d : Nat} {u : Divider}

/-- A quotient is subtracted when the upper part of the dividend is not below the divisor. -/
theorem subtracts_iff (u : Divider) :
    (u.dend.getLsbD 128 || decide (u.dend.extractLsb' 64 64 ≥ u.div)) = true ↔
      u.div.toNat ≤ u.dend.toNat / 2 ^ 64 := by
  have hlt := u.dend.isLt
  have hd := u.div.isLt
  have hbit : u.dend.getLsbD 128 = true ↔ 2 ^ 64 ≤ u.dend.toNat / 2 ^ 64 := by
    rw [Bits.getLsbD_eq_div, decide_eq_true_eq]
    omega
  rw [Bool.or_eq_true, decide_eq_true_eq, hbit, ge_iff_le, BitVec.le_def, BitVec.extractLsb'_toNat,
    Nat.shiftRight_eq_div_pow]
  omega

/-- The dividend after a subtraction. -/
theorem toNat_subtracted {dend : BitVec 129} {div : BitVec 64}
    (hsub : div.toNat ≤ dend.toNat / 2 ^ 64) (hbound : dend.toNat < 2 ^ 65 * div.toNat) :
    (((dend.extractLsb' 64 64 - div) ++ dend.extractLsb' 0 64).setWidth 129 <<< 1).toNat =
      2 * (dend.toNat - 2 ^ 64 * div.toNat) := by
  have hdiv := div.isLt
  have hdiff : (dend.extractLsb' 64 64 - div).toNat = dend.toNat / 2 ^ 64 - div.toNat := by
    rw [BitVec.toNat_sub, BitVec.extractLsb'_toNat, Nat.shiftRight_eq_div_pow]
    omega
  rw [BitVec.toNat_shiftLeft, BitVec.toNat_setWidth, Bits.toNat_append, hdiff,
    BitVec.extractLsb'_toNat, Nat.shiftRight_zero, Nat.shiftLeft_eq]
  omega

theorem toNat_shifted {w : Nat} {x : BitVec w} (k : Nat) (h : x.toNat * 2 ^ k < 2 ^ w) :
    (x <<< k).toNat = x.toNat * 2 ^ k := by
  rw [BitVec.toNat_shiftLeft, Nat.shiftLeft_eq, Nat.mod_eq_of_lt h]

/-- A quotient with the next bit. -/
theorem toNat_shifted_or_one {x : BitVec 64} (h : x.toNat * 2 < 2 ^ 64) :
    (x <<< 1 ||| 1).toNat = x.toNat * 2 + 1 := by
  have hor := Nat.two_pow_add_eq_or_of_lt (show 1 < 2 ^ 1 by decide) x.toNat
  rw [BitVec.toNat_or, toNat_shifted 1 (by omega), Nat.mul_comm]
  exact hor.symm.trans (by omega)

/-- The overflow bit for 32 bits is there for every bit that leaves them. -/
theorem ovf32_shift {q : BitVec 64} (k : Nat) (hk : k ≤ 8) (b : Nat) (hb : b < 2 ^ k) :
    (decide (2 ^ 32 ≤ q.toNat) || q.extractLsb' (32 - k) k != 0) =
      decide (2 ^ 32 ≤ q.toNat * 2 ^ k + b) := by
  have hext : (q.extractLsb' (32 - k) k != 0) = decide (q.toNat / 2 ^ (32 - k) % 2 ^ k ≠ 0) := by
    rw [Bool.eq_iff_iff, bne_iff_ne, decide_eq_true_eq, ne_eq, ← BitVec.toNat_inj,
      BitVec.extractLsb'_toNat, Nat.shiftRight_eq_div_pow]
    simp
  rw [hext, Bool.eq_iff_iff, Bool.or_eq_true, decide_eq_true_eq, decide_eq_true_eq,
    decide_eq_true_eq]
  interval_cases k <;> omega

/-- The divisor is subtracted in this cycle. -/
def Subtracts (u : Divider) : Prop := u.div.toNat ≤ u.dend.toNat / 2 ^ 64

/-- Eight zeroes are consumed in this cycle, if nothing is subtracted. -/
def Skips (u : Divider) : Prop := u.dend.extractLsb' 57 72 = 0 ∧ u.count.extractLsb' 3 4 ≠ 7

/-- The bits of the quotient that a cycle gives. -/
structure Step (u : Divider) (k b : Nat) (u' : Divider) : Prop where
  bits : k = 1 ∨ k = 8 ∧ b = 0 ∧ u.dend.toNat < 2 ^ 57 ∧ u.count.extractLsb' 3 4 ≠ 7
  bit : b = 0 ∨ b = 1
  count : u'.count = u.count + BitVec.ofNat 7 k
  running : u'.running = (u.running && u.count != 63)
  overflow : u'.overflow = u.quot.getLsbD 63
  quot : b = 0 ∧ u'.quot = u.quot <<< k ∨ b = 1 ∧ k = 1 ∧ u'.quot = u.quot <<< 1 ||| 1
  ovf32 : u'.ovf32 = (u.ovf32 || u.quot.extractLsb' (32 - k) k != 0)
  div : u'.div = u.div
  negResult : u'.negResult = u.negResult
  isModulus : u'.isModulus = u.isModulus
  is32bit : u'.is32bit = u.is32bit
  isSigned : u'.isSigned = u.isSigned
  dend : b = 0 ∧ ¬Subtracts u ∧ u'.dend = u.dend <<< k ∨
    b = 1 ∧ Subtracts u ∧ u'.dend =
      ((u.dend.extractLsb' 64 64 - u.div) ++ u.dend.extractLsb' 0 64).setWidth 129 <<< 1

theorem extract_one (q : BitVec 64) : (q.extractLsb' 31 1 != 0) = q.getLsbD 31 := by
  rw [Bool.eq_iff_iff, bne_iff_ne, ne_eq, ← BitVec.toNat_inj, BitVec.extractLsb'_toNat,
    Bits.getLsbD_eq_div, decide_eq_true_eq, Nat.shiftRight_eq_div_pow,
    show (0 : BitVec 1).toNat = 0 from rfl]
  omega

/-- What one cycle of a division does. -/
theorem exists_step (u : Divider) : ∃ k b, Step u k b (advance u) := by
  unfold advance
  by_cases hsub : Subtracts u
  · refine ⟨1, 1, ?_⟩
    rw [if_pos ((subtracts_iff u).mpr hsub)]
    exact ⟨.inl rfl, .inr rfl, rfl, rfl, rfl, .inr ⟨rfl, rfl, rfl⟩,
      congrArg (u.ovf32 || ·) (extract_one u.quot).symm, rfl, rfl, rfl, rfl, rfl,
      .inr ⟨rfl, hsub, rfl⟩⟩
  · rw [if_neg (mt (subtracts_iff u).mp hsub)]
    by_cases hskip : Skips u
    · refine ⟨8, 0, ?_⟩
      have hsmall : u.dend.toNat < 2 ^ 57 := by
        have hz := congrArg BitVec.toNat hskip.1
        have hlt := u.dend.isLt
        rw [BitVec.extractLsb'_toNat, Nat.shiftRight_eq_div_pow,
          show (0 : BitVec 72).toNat = 0 from rfl] at hz
        omega
      rw [if_pos (by simpa [Skips] using hskip)]
      exact ⟨.inr ⟨rfl, rfl, hsmall, hskip.2⟩, .inl rfl, rfl, rfl, rfl, .inl ⟨rfl, rfl⟩, rfl, rfl,
        rfl, rfl, rfl, rfl, .inl ⟨rfl, hsub, rfl⟩⟩
    · refine ⟨1, 0, ?_⟩
      rw [if_neg (by simpa [Skips] using hskip)]
      exact ⟨.inl rfl, .inl rfl, rfl, rfl, rfl, .inl ⟨rfl, rfl⟩,
        congrArg (u.ovf32 || ·) (extract_one u.quot).symm, rfl, rfl, rfl, rfl, rfl,
        .inl ⟨rfl, hsub, rfl⟩⟩

variable {k b : Nat} {u' : Divider}

/-- The guard on the counter keeps the skips away from the last bit. -/
theorem Counting.skip_le (h : Counting dIn t u) (ht : t ≤ 64) (hs : Step u k b u') :
    t + k ≤ 65 ∧ (k = 8 → t ≤ 56) := by
  rcases hs.bits with rfl | ⟨rfl, -, -, hguard⟩
  · omega
  · have ht56 : t ≤ 56 := by
      by_contra hgt
      apply hguard
      rw [h.count]
      have h57 : 57 ≤ t := by omega
      interval_cases t <;> rfl
    omega

/-- The count goes on. -/
theorem Counting.step (h : Counting dIn t u) (ht : t ≤ 64) (hs : Step u k b u') :
    Counting dIn (t + k) u' := by
  obtain ⟨hle, h8⟩ := h.skip_le ht hs
  have hlast : (u.count != 63) = decide (t ≠ 64) := by
    rw [h.count, Bool.eq_iff_iff, bne_iff_ne, decide_eq_true_eq, ne_eq, not_iff_not,
      ← BitVec.toNat_inj, BitVec.toNat_ofNat]
    simp only [BitVec.reduceToNat]
    omega
  refine ⟨hle, ?_, ?_, hs.div.trans h.div, hs.negResult.trans h.negResult,
    hs.isModulus.trans h.isModulus, hs.is32bit.trans h.is32bit, hs.isSigned.trans h.isSigned⟩
  · rw [hs.count, h.count, ← BitVec.ofNat_add, Nat.add_right_comm]
  · rw [hs.running, h.running, hlast, ← Bool.decide_and, decide_eq_decide]
    rcases hs.bits with rfl | ⟨rfl, -⟩ <;> omega

/-- The quotient so far is below `2 ^ t`, with a bit to spare. -/
theorem Exact.quot_lt (h : Exact D d t u) (hD : D < 2 ^ 64 * d) : 2 * u.quot.toNat < 2 ^ t := by
  have hd : 0 < d := by
    by_contra h0
    have : d = 0 := by omega
    subst this
    omega
  have hle : 2 ^ 65 * (d * u.quot.toNat) ≤ 2 ^ t * D := by
    have := h.equation
    omega
  have hlt : 2 ^ t * D < 2 ^ t * (2 ^ 64 * d) := Nat.mul_lt_mul_of_pos_left hD (by positivity)
  have hmul : 2 ^ 64 * d * (2 * u.quot.toNat) < 2 ^ 64 * d * 2 ^ t := by
    calc 2 ^ 64 * d * (2 * u.quot.toNat) = 2 ^ 65 * (d * u.quot.toNat) := by ring
      _ < 2 ^ t * (2 ^ 64 * d) := lt_of_le_of_lt hle hlt
      _ = 2 ^ 64 * d * 2 ^ t := by ring
  exact Nat.lt_of_mul_lt_mul_left hmul

/-- The division equation goes on. -/
theorem Exact.step (h : Exact D d t u) (hc : Counting dIn t u) (ht : t ≤ 64)
    (hd : u.div.toNat = d) (hD : D < 2 ^ 64 * d) (hs : Step u k b u') : Exact D d (t + k) u' := by
  obtain ⟨hle, h8⟩ := hc.skip_le ht hs
  have hq := h.quot_lt hD
  have hpow : 2 ^ t * 2 ^ k ≤ 2 ^ 65 := by
    rw [← Nat.pow_add]
    exact Nat.pow_le_pow_right (by omega) hle
  have hmul : 2 * (u.quot.toNat * 2 ^ k) < 2 ^ t * 2 ^ k := by
    rw [← Nat.mul_assoc]
    exact Nat.mul_lt_mul_of_pos_right hq (by positivity)
  have hd64 := u.div.isLt
  have hdend : u'.dend.toNat = 2 ^ k * (u.dend.toNat - b * (2 ^ 64 * d)) ∧
      u.dend.toNat < 2 ^ 65 * d ∧ b * (2 ^ 64 * d) ≤ u.dend.toNat ∧
      2 ^ k * (u.dend.toNat - b * (2 ^ 64 * d)) < 2 ^ 65 * d := by
    have hbound := h.bound
    rcases hs.dend with ⟨rfl, hno, hval⟩ | ⟨rfl, hsub, hval⟩
    · have hlow : u.dend.toNat < 2 ^ 64 * d := by
        unfold Subtracts at hno
        omega
      have hnext : 2 ^ k * u.dend.toNat < 2 ^ 65 * d := by
        rcases hs.bits with rfl | ⟨rfl, -, hsmall, -⟩ <;> omega
      rw [hval, toNat_shifted k (by rw [Nat.mul_comm]; omega)]
      refine ⟨?_, hbound, by omega, by simpa using hnext⟩
      simp [Nat.mul_comm]
    · have hk : k = 1 := by
        rcases hs.bits with rfl | ⟨-, h0, -⟩
        · rfl
        · omega
      subst hk
      unfold Subtracts at hsub
      rw [hval, toNat_subtracted hsub (by rw [hd]; exact hbound), hd]
      omega
  obtain ⟨hval, -, hbig, hnext⟩ := hdend
  have hquot : u'.quot.toNat = u.quot.toNat * 2 ^ k + b := by
    rcases hs.quot with ⟨rfl, hv⟩ | ⟨rfl, rfl, hv⟩
    · rw [hv, toNat_shifted k (by omega), Nat.add_zero]
    · rw [hv, toNat_shifted_or_one (by omega), Nat.pow_one]
  refine ⟨?_, ?_, ?_, ?_⟩
  · have heq := h.equation
    obtain ⟨e, he⟩ := Nat.exists_eq_add_of_le hbig
    have hk1 : b * 2 ^ k = b * 2 := by
      rcases hs.quot with ⟨rfl, -⟩ | ⟨rfl, rfl, -⟩ <;> simp
    have hsubst : u.dend.toNat - b * (2 ^ 64 * d) = e := by omega
    rw [hval, hquot, hsubst]
    calc 2 ^ k * e + 2 ^ 65 * (d * (u.quot.toNat * 2 ^ k + b))
        = 2 ^ k * (e + 2 ^ 65 * (d * u.quot.toNat)) + 2 ^ 64 * d * (b * 2) := by ring
      _ = 2 ^ k * (e + 2 ^ 65 * (d * u.quot.toNat)) + 2 ^ 64 * d * (b * 2 ^ k) := by rw [hk1]
      _ = 2 ^ k * (b * (2 ^ 64 * d) + e + 2 ^ 65 * (d * u.quot.toNat)) := by ring
      _ = 2 ^ (t + k) * D := by rw [← he, heq]; ring
  · rw [hval]
    exact hnext
  · have hb : b < 2 ^ k := by
      rcases hs.quot with ⟨rfl, -⟩ | ⟨rfl, rfl, -⟩
      · positivity
      · decide
    have hk8 : k ≤ 8 := by
      rcases hs.bits with rfl | ⟨rfl, -⟩ <;> omega
    rw [hs.ovf32, h.ovf32, ovf32_shift k hk8 b hb, hquot]
  · intro hlast
    have hk : t = 64 := by
      rcases hs.bits with rfl | ⟨rfl, -⟩
      · omega
      · have := h8 rfl
        omega
    subst hk
    rw [hs.overflow, BitVec.getLsbD, Nat.testBit_lt_two_pow (by omega)]

/-- The first bit of a quotient that is too large goes on to the left. -/
theorem Beyond.step (h : Beyond t u) (hc : Counting dIn t u) (ht : t ≤ 64)
    (hfirst : t = 0 → Subtracts u) (hs : Step u k b u') : Beyond (t + k) u' := by
  obtain ⟨hle, h8⟩ := hc.skip_le ht hs
  have hshift (j : Nat) (hj : j + k < 64) (hset : u.quot.getLsbD j = true) :
      u'.quot.getLsbD (j + k) = true := by
    rcases hs.quot with ⟨-, hv⟩ | ⟨-, rfl, hv⟩
    · rw [hv, BitVec.getLsbD_shiftLeft]
      simp [hj, hset]
    · rw [hv, BitVec.getLsbD_or, BitVec.getLsbD_shiftLeft]
      simp [hj, hset]
  refine ⟨?_, ?_, ?_⟩
  · intro h1 h64
    rcases Nat.eq_zero_or_pos t with rfl | hpos
    · -- the first bit
      rcases hs.dend with ⟨-, hno, -⟩ | ⟨rfl, -, -⟩
      · exact absurd (hfirst rfl) hno
      · obtain ⟨hb0, -⟩ | ⟨-, rfl, hv⟩ := hs.quot
        · omega
        · rw [hv]
          simp
    · have hidx : t + k - 1 = t - 1 + k := by omega
      rw [hidx]
      exact hshift (t - 1) (by omega) (h.first hpos ht)
  · intro h33
    rw [hs.ovf32, Bool.or_eq_true]
    by_cases hold : 33 ≤ t
    · exact .inl (h.ovf32 hold)
    · right
      have hpos : 1 ≤ t := by
        rcases hs.bits with rfl | ⟨rfl, -⟩ <;> omega
      -- the first bit is among those that leave the lower half
      rw [bne_iff_ne]
      intro hz
      have hbit := congrArg (fun v : BitVec k => v.getLsbD (t - 1 - (32 - k))) hz
      have hset := h.first hpos ht
      have hidx : 32 - k + (t - 1 - (32 - k)) = t - 1 := by omega
      rw [BitVec.getLsbD_extractLsb', hidx, hset, decide_eq_true (by omega)] at hbit
      simp at hbit
  · intro hlast
    have hk : t = 64 := by
      rcases hs.bits with rfl | ⟨rfl, -⟩
      · omega
      · have := h8 rfl
        omega
    rw [hs.overflow]
    subst hk
    exact h.first (by omega) (by omega)

end

/-! ## A run -/

/-- A division has done `t` bits. -/
structure Dividing (dIn : Execute1ToDivider) (t : Nat) (u : Divider) : Prop where
  counting : Counting dIn t u
  exact : dendOf dIn < 2 ^ 64 * dIn.divisor.toNat →
    Exact (dendOf dIn) dIn.divisor.toNat t u
  beyond : 2 ^ 64 * dIn.divisor.toNat ≤ dendOf dIn → Beyond t u
  subtracts : 2 ^ 64 * dIn.divisor.toNat ≤ dendOf dIn → t = 0 → Subtracts u

section

variable {dIn : Execute1ToDivider} {t : Nat} {u : Divider}

/-- The start of a division. -/
theorem dividing_start (u : Divider) (hvalid : dIn.valid = true) (hflush : dIn.flush = false) :
    Dividing dIn 0 (step u dIn) := by
  have hdend : (step u dIn).dend.toNat = dendOf dIn := by
    have hlt := dIn.dividend.isLt
    simp only [step, divide, hflush, hvalid, Bool.false_eq_true, if_false, if_true, dendOf]
    split_ifs
    · rw [toNat_shifted 64 (by rw [BitVec.toNat_setWidth]; omega), BitVec.toNat_setWidth]
      omega
    · rw [BitVec.toNat_setWidth]
      omega
  have hdiv : (step u dIn).div = dIn.divisor := by
    simp [step, divide, hflush, hvalid]
  refine ⟨?_, ?_, ?_, ?_⟩
  · refine ⟨by omega, ?_, ?_, hdiv, ?_, ?_, ?_, ?_⟩ <;>
      simp [step, divide, hflush, hvalid]
  · intro hD
    refine ⟨?_, ?_, ?_, by omega⟩
    · rw [hdend]
      simp [step, divide, hflush, hvalid]
    · rw [hdend]
      omega
    · simp [step, divide, hflush, hvalid]
  · intro _
    exact ⟨by omega, by omega, by omega⟩
  · intro hD _
    unfold Subtracts
    rw [hdend, hdiv]
    omega

/-- A cycle of a division. -/
theorem Dividing.step (h : Dividing dIn t u) (ht : t ≤ 64) {i : Execute1ToDivider}
    (hvalid : i.valid = false) (hflush : i.flush = false) :
    ∃ k, 1 ≤ k ∧ t + k ≤ 65 ∧ Dividing dIn (t + k) (step u i) := by
  have hrun : u.running = true := h.counting.running.trans (decide_eq_true ht)
  have hdivide : divide u i = advance u := by
    simp [divide, hvalid, hflush, hrun]
  obtain ⟨k, b, hs⟩ := exists_step u
  have hdiv : u.div.toNat = dIn.divisor.toNat := by rw [h.counting.div]
  have hc := h.counting.step ht hs
  refine ⟨k, ?_, hc.le, ?_⟩
  · rcases hs.bits with rfl | ⟨rfl, -⟩ <;> omega
  · have hstep : Divider.step u i = { advance u with dOut := output u } := by
      rw [Divider.step, hdivide]
    rw [hstep]
    refine ⟨⟨hc.le, hc.count, hc.running, hc.div, hc.negResult, hc.isModulus, hc.is32bit,
      hc.isSigned⟩, ?_, ?_, ?_⟩
    · intro hD
      have he := (h.exact hD).step h.counting ht hdiv hD hs
      exact ⟨he.equation, he.bound, he.ovf32, he.overflow⟩
    · intro hD
      have hb := (h.beyond hD).step h.counting ht (h.subtracts hD) hs
      exact ⟨hb.first, hb.ovf32, hb.overflow⟩
    · intro _ h0
      rcases hs.bits with rfl | ⟨rfl, -⟩ <;> omega

theorem Dividing.count_ne (h : Dividing dIn t u) (ht : t ≤ 64) : u.count ≠ 64 := by
  rw [h.counting.count, ne_eq, ← BitVec.toNat_inj, BitVec.toNat_ofNat]
  simp only [BitVec.reduceToNat]
  omega

variable {input : Nat → Execute1ToDivider}

/-- A division comes to its last bit. -/
theorem exists_last (u : Divider)
    (hquiet : ∀ n, 1 ≤ n → (input n).valid = false ∧ (input n).flush = false)
    (j : Nat) : ∀ n t, t + j = 65 → 1 ≤ n → Dividing dIn t (Clocked.trace step u input n) →
      ∃ last, n ≤ last ∧ last ≤ n + j ∧ Dividing dIn 65 (Clocked.trace step u input last) ∧
        ∀ m, n ≤ m → m < last → (Clocked.trace step u input m).count ≠ 64 := by
  induction j using Nat.strongRecOn with
  | _ j ih =>
    intro n t hj hn h
    rcases Nat.eq_zero_or_pos j with rfl | hpos
    · obtain rfl : t = 65 := by omega
      exact ⟨n, le_rfl, le_rfl, h, fun m h1 h2 => absurd h1 (by omega)⟩
    · obtain ⟨k, hk, hle, hnext⟩ := h.step (by omega) (hquiet n hn).1 (hquiet n hn).2
      obtain ⟨last, h1, h2, h3, h4⟩ := ih (j - k) (by omega) (n + 1) (t + k) (by omega) (by omega)
        hnext
      refine ⟨last, by omega, by omega, h3, ?_⟩
      intro m hm hlast
      rcases Nat.lt_or_ge n m with hlt | hge
      · exact h4 m hlt hlast
      · obtain rfl : m = n := by omega
        exact h.count_ne (by omega)

/-- After its last bit the divider is idle. -/
theorem idle_after {last : Nat} (u : Divider)
    (hquiet : ∀ n, 1 ≤ n → (input n).valid = false ∧ (input n).flush = false) (hlast : 1 ≤ last)
    (h : Dividing dIn 65 (Clocked.trace step u input last)) (m : Nat) (hm : last < m) :
    (Clocked.trace step u input m).running = false ∧ (Clocked.trace step u input m).count = 0 := by
  have hstop {v : Divider} (n : Nat) (hn : 1 ≤ n) (hv : v.running = false) :
      (step v (input n)).running = false ∧ (step v (input n)).count = 0 := by
    simp [step, divide, hquiet n hn, hv]
  induction m, hm using Nat.le_induction with
  | base => exact hstop last hlast h.counting.running
  | succ m hm ih => exact hstop m (by omega) ih.1

end

/-! ## The operands -/

namespace DivInsn

variable (insn : DivInsn) (a b x : BitVec 64)

/-- The absolute value that the divider gets. -/
def mag : Nat := (insn.abs x).toNat % 2 ^ insn.width

/-- The number with a sign and an absolute value. -/
def signed (neg : Bool) (m : Nat) : Int := if neg then -(m : Int) else m

/-- An operand has its sign and its absolute value. -/
theorem value_eq : insn.value x = signed (insn.sign x) (insn.mag x) := by
  have hlt := x.isLt
  have hbit (k : Nat) := Bits.getLsbD_eq_div x k
  unfold value signed mag abs sign width
  cases insn.isSigned with
  | false =>
      cases insn.is32bit
      · simp [Nat.mod_eq_of_lt hlt]
      · simp [BitVec.toNat_setWidth]
  | true =>
      cases insn.is32bit
      · simp only [Bool.true_and, Bool.false_eq_true, if_false, if_true, hbit,
          BitVec.toInt_eq_toNat_cond, BitVec.toNat_setWidth]
        by_cases hs : x.toNat / 2 ^ 63 % 2 = 1
        · simp only [hs, decide_true, Bool.not_true, Bool.false_eq_true, if_false, if_true,
            BitVec.toNat_neg]
          omega
        · simp only [hs, decide_false, Bool.not_false, Bool.false_eq_true, if_false, if_true]
          omega
      · simp only [Bool.true_and, if_true, hbit, BitVec.toInt_eq_toNat_cond,
          BitVec.toNat_setWidth]
        by_cases hs : x.toNat / 2 ^ 31 % 2 = 1
        · simp only [hs, decide_true, Bool.not_true, Bool.false_eq_true, if_false, if_true,
            BitVec.toNat_neg]
          omega
        · simp only [hs, decide_false, Bool.not_false, Bool.false_eq_true, if_false, if_true]
          omega

/-- Signed operands have a bit less. -/
theorem mag_le (hs : insn.isSigned = true) : insn.mag x ≤ 2 ^ (insn.width - 1) := by
  have hlt := x.isLt
  have hbit (k : Nat) := Bits.getLsbD_eq_div x k
  unfold mag abs sign width
  rw [hs]
  cases insn.is32bit
  · simp only [Bool.true_and, Bool.false_eq_true, if_false, hbit]
    by_cases hb : x.toNat / 2 ^ 63 % 2 = 1
    · simp only [hb, decide_true, Bool.not_true, Bool.false_eq_true, if_false, BitVec.toNat_neg]
      omega
    · simp only [hb, decide_false, Bool.not_false, if_true]
      omega
  · simp only [Bool.true_and, if_true, hbit]
    by_cases hb : x.toNat / 2 ^ 31 % 2 = 1
    · simp only [hb, decide_true, Bool.not_true, Bool.false_eq_true, if_false, BitVec.toNat_neg]
      omega
    · simp only [hb, decide_false, Bool.not_false, if_true]
      omega

theorem mag_lt : insn.mag x < 2 ^ insn.width := Nat.mod_lt _ (by positivity)

theorem toNat_divisor : (insn.xToDivider a b).divisor.toNat = insn.mag b := by
  have hlt := (insn.abs b).isLt
  unfold xToDivider mag width
  cases insn.is32bit
  · simp [Nat.mod_eq_of_lt hlt]
  · simp only [Bool.not_true, Bool.false_eq_true, if_false, if_true]
    rw [Bits.toNat_zero_append, BitVec.extractLsb'_toNat, Nat.shiftRight_zero]

/-- The dividend behind which the extended forms have zeroes. -/
theorem dendOf_xToDivider : dendOf (insn.xToDivider a b) =
    if insn.op = .dive then insn.mag a * 2 ^ insn.width else insn.mag a := by
  have hlt := (insn.abs a).isLt
  unfold dendOf xToDivider mag width
  cases insn.is32bit
  · by_cases hop : insn.op = .dive <;> simp [hop, Nat.mod_eq_of_lt hlt]
  · by_cases hop : insn.op = .dive
    · simp only [Bool.not_true, Bool.false_and, Bool.false_eq_true, if_false, if_true, hop]
      rw [Bits.toNat_append, BitVec.extractLsb'_toNat, Nat.shiftRight_zero]
      simp
    · simp only [Bool.not_true, Bool.false_and, Bool.false_eq_true, if_false, if_true, hop]
      rw [Bits.toNat_zero_append, BitVec.extractLsb'_toNat, Nat.shiftRight_zero]

theorem dividend_eq : insn.dividend a = signed (insn.sign a) (dendOf (insn.xToDivider a b)) := by
  unfold dividend
  rw [dendOf_xToDivider, value_eq]
  unfold signed
  split_ifs <;> push_cast <;> ring

theorem signed_tdiv (p q : Bool) (n d : Nat) :
    (signed p n).tdiv (signed q d) = signed (p ^^ q) (n / d) := by
  cases p <;> cases q <;> simp [signed, Int.neg_tdiv, Int.tdiv_neg]

theorem signed_tmod (p q : Bool) (n d : Nat) :
    (signed p n).tmod (signed q d) = signed p (n % d) := by
  have hnat : (n : Int).tmod d = ((n % d : Nat) : Int) := (Int.ofNat_tmod n d).symm
  cases p <;> cases q <;> simp only [signed, Int.neg_tmod, Int.tmod_neg, hnat, if_true,
    Bool.false_eq_true, if_false]

end DivInsn

/-! ## The result -/

section

open DivInsn

variable {insn : DivInsn} {a b : BitVec 64} {u : Divider}

/-- The result with its sign, in 65 bits. -/
theorem sresult_eq (u : Divider) : u.sresult = BitVec.ofInt 65 (signed u.negResult
    (if u.isModulus then u.dend.extractLsb' 65 64 else u.quot).toNat) := by
  unfold sresult signed
  generalize (if u.isModulus then u.dend.extractLsb' 65 64 else u.quot) = r
  have hlt := r.isLt
  apply BitVec.eq_of_toNat_eq
  cases u.negResult
  · simp only [Bool.false_eq_true, if_false, BitVec.toNat_ofInt, BitVec.toNat_setWidth]
    omega
  · simp only [if_true, BitVec.toNat_ofInt, BitVec.toNat_neg, BitVec.toNat_setWidth]
    omega

theorem extract_ofInt {n : Nat} (hn : n = 32 ∨ n = 64) (s : Int) :
    (BitVec.ofInt 65 s).extractLsb' 0 n = BitVec.ofInt n s := by
  apply BitVec.eq_of_toNat_eq
  rw [BitVec.extractLsb'_toNat, Nat.shiftRight_zero, BitVec.toNat_ofInt, BitVec.toNat_ofInt]
  rcases hn with rfl | rfl <;> omega

/-- The bits that tell a result out of the range of 64-bit signed numbers. -/
theorem signs64 {s : Int} (h : -2 ^ 64 < s ∧ s < 2 ^ 64) :
    ((BitVec.ofInt 65 s).getLsbD 64 ^^ (BitVec.ofInt 65 s).getLsbD 63) =
      decide ¬(-2 ^ 63 ≤ s ∧ s < 2 ^ 63) := by
  rw [Bits.getLsbD_eq_div, Bits.getLsbD_eq_div, BitVec.toNat_ofInt, Bool.eq_iff_iff,
    Bool.xor_iff_ne, decide_eq_true_eq, ne_eq, decide_eq_decide]
  omega

theorem signs32 {s : Int} (h : -2 ^ 32 < s ∧ s < 2 ^ 32) :
    ((BitVec.ofInt 65 s).getLsbD 32 != (BitVec.ofInt 65 s).getLsbD 31) =
      decide ¬(-2 ^ 31 ≤ s ∧ s < 2 ^ 31) := by
  rw [Bits.getLsbD_eq_div, Bits.getLsbD_eq_div, BitVec.toNat_ofInt, Bool.eq_iff_iff, bne_iff_ne,
    decide_eq_true_eq, ne_eq, decide_eq_decide]
  omega

/-- What the result is made from when the quotient fits in 64 bits. -/
theorem Dividing.last {dIn : Execute1ToDivider} (h : Dividing dIn 65 u)
    (hD : dendOf dIn < 2 ^ 64 * dIn.divisor.toNat) :
    u.quot.toNat = dendOf dIn / dIn.divisor.toNat ∧
      (u.dend.extractLsb' 65 64).toNat = dendOf dIn % dIn.divisor.toNat ∧
      u.ovf32 = decide (2 ^ 32 ≤ dendOf dIn / dIn.divisor.toNat) ∧ u.overflow = false := by
  have he := h.exact hD
  have heq := he.equation
  have hbound := he.bound
  -- what is left in the dividend is the remainder in its upper half
  obtain ⟨r, hr⟩ : ∃ r, u.dend.toNat = 2 ^ 65 * r := by
    have hdvd : 2 ^ 65 ∣ u.dend.toNat := by
      rw [← Nat.dvd_add_left (Nat.dvd_mul_right (2 ^ 65) (dIn.divisor.toNat * u.quot.toNat)), heq]
      exact Nat.dvd_mul_right _ _
    exact hdvd
  have hrd : r < dIn.divisor.toNat := by omega
  have hsum : r + dIn.divisor.toNat * u.quot.toNat = dendOf dIn := by omega
  have hdm : dendOf dIn / dIn.divisor.toNat = u.quot.toNat ∧
      dendOf dIn % dIn.divisor.toNat = r :=
    (Nat.div_mod_unique (by omega)).mpr ⟨hsum, hrd⟩
  have hdlt := dIn.divisor.isLt
  refine ⟨hdm.1.symm, ?_, ?_, he.overflow rfl⟩
  · rw [BitVec.extractLsb'_toNat, Nat.shiftRight_eq_div_pow, hr, hdm.2]
    omega
  · rw [he.ovf32, hdm.1]

/-- The magnitude of the result. -/
def magnitude (insn : DivInsn) (D d : Nat) : Nat := if insn.op = .mod then D % d else D / d

/-- A remainder is never out of range. -/
theorem remainder_lt (hd : 0 < insn.mag b) :
    insn.mag a % insn.mag b < 2 ^ (if insn.isSigned then insn.width - 1 else insn.width) := by
  have hlt := Nat.mod_lt (insn.mag a) hd
  split_ifs with hs
  · have := insn.mag_le b hs
    omega
  · have := insn.mag_lt b
    omega

theorem natAbs_signed (neg : Bool) (m : Nat) : signed neg m = m ∨ signed neg m = -m := by
  cases neg
  · exact .inl rfl
  · exact .inr rfl

/-- The overflow of a division that has a quotient of 64 bits: only a quotient overflows. -/
theorem didOvf_exact (h : Dividing (insn.xToDivider a b) 65 u)
    (hD : dendOf (insn.xToDivider a b) < 2 ^ 64 * insn.mag b)
    (hovf32 : u.ovf32 = decide (2 ^ 32 ≤ dendOf (insn.xToDivider a b) / insn.mag b))
    (hovf : u.overflow = false)
    (hsres : u.sresult = BitVec.ofInt 65 (signed u.negResult
      (magnitude insn (dendOf (insn.xToDivider a b)) (insn.mag b)))) :
    u.didOvf = decide (insn.op ≠ .mod ∧ ¬insn.Fits (signed u.negResult
      (magnitude insn (dendOf (insn.xToDivider a b)) (insn.mag b)))) := by
  have hd : 0 < insn.mag b := by
    by_contra h0
    have hz : insn.mag b = 0 := by omega
    rw [hz] at hD
    omega
  have hunsigned : insn.isSigned = false → ∀ m, signed u.negResult m = m := by
    intro hs m
    have hneg : u.negResult = false := by
      rw [h.counting.negResult]
      show (insn.sign a ^^ (insn.sign b && !decide (insn.op = .mod))) = false
      simp [sign, hs]
    rw [hneg]
    rfl
  have hrem := remainder_lt (a := a) hd
  have hquot : dendOf (insn.xToDivider a b) / insn.mag b < 2 ^ 64 := by
    rw [Nat.div_lt_iff_lt_mul hd]
    exact hD
  have hDmod : insn.op = .mod → dendOf (insn.xToDivider a b) = insn.mag a := by
    intro hop
    rw [dendOf_xToDivider, hop, if_neg (by decide)]
  have hle : insn.op = .mod → dendOf (insn.xToDivider a b) / insn.mag b ≤ insn.mag a := by
    intro hop
    rw [hDmod hop]
    exact Nat.div_le_self _ _
  have hmaga := insn.mag_lt a
  have hmaga' := insn.mag_le a
  generalize dendOf (insn.xToDivider a b) = D at *
  have hm : insn.op = .mod → magnitude insn D (insn.mag b) = insn.mag a % insn.mag b := by
    intro hop
    rw [magnitude, if_pos hop, hDmod hop]
  have hm' : insn.op ≠ .mod → magnitude insn D (insn.mag b) = D / insn.mag b := by
    intro hop
    rw [magnitude, if_neg hop]
  generalize magnitude insn D (insn.mag b) = m at *
  have habs := natAbs_signed u.negResult m
  have hpos (hs : insn.isSigned = false) := hunsigned hs m
  clear hunsigned
  have hdid : u.didOvf = if !insn.is32bit then
      insn.isSigned && ((BitVec.ofInt 65 (signed u.negResult m)).getLsbD 64 ^^
        (BitVec.ofInt 65 (signed u.negResult m)).getLsbD 63)
      else if insn.isSigned then decide (2 ^ 32 ≤ D / insn.mag b) ||
        (BitVec.ofInt 65 (signed u.negResult m)).getLsbD 32 !=
          (BitVec.ofInt 65 (signed u.negResult m)).getLsbD 31
      else decide (2 ^ 32 ≤ D / insn.mag b) := by
    unfold didOvf
    rw [hsres, h.counting.is32bit, h.counting.isSigned, hovf, hovf32, Bool.false_or]
    rfl
  rw [Bool.eq_iff_iff, decide_eq_true_eq, hdid]
  unfold Fits
  unfold width at *
  generalize signed u.negResult m = s at *
  generalize D / insn.mag b = q at *
  generalize insn.mag a % insn.mag b = r at *
  cases hw : insn.is32bit with
  | false =>
      simp only [hw, Bool.not_false, if_true, Bool.false_eq_true, if_false] at *
      cases hs : insn.isSigned with
      | false =>
          have hsm := hpos hs
          simp only [hs, Bool.false_and, Bool.false_eq_true, if_false] at *
          by_cases hop : insn.op = .mod
          · simp [hop]
          · have := hm' hop
            simp only [false_iff, not_and, not_not]
            intro _
            omega
      | true =>
          simp only [hs, Bool.true_and, if_true] at *
          by_cases hop : insn.op = .mod
          · have := hm hop
            rw [signs64 (by omega), decide_eq_true_eq]
            simp only [hop, ne_eq, not_true_eq_false, false_and, iff_false, not_not]
            omega
          · have := hm' hop
            rw [signs64 (by omega), decide_eq_true_eq]
            simp [hop]
  | true =>
      simp only [hw, Bool.not_true, if_true, Bool.false_eq_true, if_false] at *
      cases hs : insn.isSigned with
      | false =>
          have hsm := hpos hs
          simp only [hs, Bool.false_eq_true, if_false, decide_eq_true_eq] at *
          by_cases hop : insn.op = .mod
          · have := hle hop
            simp only [hop, ne_eq, not_true_eq_false, false_and, iff_false]
            omega
          · have := hm' hop
            simp only [ne_eq, hop, not_false_eq_true, true_and]
            omega
      | true =>
          simp only [hs, if_true, Bool.or_eq_true, decide_eq_true_eq] at *
          by_cases hop : insn.op = .mod
          · have := hm hop
            have := hle hop
            rw [signs32 (by omega), decide_eq_true_eq]
            simp only [hop, ne_eq, not_true_eq_false, false_and, iff_false]
            omega
          · have := hm' hop
            simp only [ne_eq, hop, not_false_eq_true, true_and]
            rcases Nat.lt_or_ge q (2 ^ 32) with hlt | hge
            · rw [signs32 (by omega), decide_eq_true_eq]
              omega
            · simp only [hge, true_or, true_iff]
              omega

/-- The overflow and the result of a division that has a quotient of 64 bits. -/
theorem output_exact (h : Dividing (insn.xToDivider a b) 65 u)
    (hD : dendOf (insn.xToDivider a b) < 2 ^ 64 * insn.mag b) :
    (u.oresult, u.didOvf) = insn.reference a b := by
  have hlast := h.last (by rw [insn.toNat_divisor]; exact hD)
  rw [insn.toNat_divisor] at hlast
  obtain ⟨hquot, hrem, hovf32, hovf⟩ := hlast
  set D := dendOf (insn.xToDivider a b) with hDdef
  set d := insn.mag b with hddef
  have hd : 0 < d := by
    by_contra h0
    have : d = 0 := by omega
    rw [this] at hD
    omega
  -- the signed result
  set s := signed u.negResult (magnitude insn D d) with hsdef
  have hsres : u.sresult = BitVec.ofInt 65 s := by
    rw [sresult_eq, hsdef, magnitude, h.counting.isModulus]
    show BitVec.ofInt 65 (signed u.negResult
      (if decide (insn.op = .mod) = true then _ else _ : BitVec 64).toNat) = _
    by_cases hop : insn.op = .mod <;> simp [hop, hquot, hrem]
  have hvalue : s = if insn.op = .mod then (insn.dividend a).tmod (insn.value b)
      else (insn.dividend a).tdiv (insn.value b) := by
    rw [insn.dividend_eq a b, insn.value_eq b, signed_tmod, signed_tdiv, ← hDdef, ← hddef, hsdef,
      magnitude, h.counting.negResult]
    show signed (insn.sign a ^^ (insn.sign b && !decide (insn.op = .mod))) _ = _
    by_cases hop : insn.op = .mod <;> simp [hop]
  have hb0 : insn.value b ≠ 0 := by
    rw [insn.value_eq b, ← hddef]
    unfold signed
    split_ifs <;> omega
  have hovf : u.didOvf = decide (insn.op ≠ .mod ∧ ¬insn.Fits s) :=
    didOvf_exact h hD hovf32 hovf hsres
  have hmod : u.isModulus = decide (insn.op = .mod) := h.counting.isModulus
  have h32 : u.is32bit = insn.is32bit := h.counting.is32bit
  unfold reference oresult
  rw [if_neg hb0, hovf, hmod, h32, hsres, extract_ofInt (.inl rfl),
    extract_ofInt (.inr rfl), hvalue]
  by_cases hop : insn.op = .mod
  · simp [hop]
  · by_cases hfits : insn.Fits ((insn.dividend a).tdiv (insn.value b))
    · cases hw : insn.is32bit <;> simp [hop, hfits]
    · simp [hop, hfits]

/-- A divisor of zero, or a quotient of more than 64 bits: the first bit of the quotient has come to
the overflow bits. -/
theorem output_beyond (h : Dividing (insn.xToDivider a b) 65 u)
    (hD : 2 ^ 64 * insn.mag b ≤ dendOf (insn.xToDivider a b)) :
    (u.oresult, u.didOvf) = insn.reference a b := by
  have hb := h.beyond (by rw [insn.toNat_divisor]; exact hD)
  have hovf : u.didOvf = true := by
    unfold didOvf
    rw [hb.overflow rfl, hb.ovf32 (by omega)]
    split_ifs <;> rfl
  have hres : u.oresult = 0 := by
    unfold oresult
    rw [hovf, if_pos rfl]
  rw [hres, hovf]
  unfold reference
  by_cases hb0 : insn.value b = 0
  · rw [if_pos hb0]
  · rw [if_neg hb0]
    have hmag : 0 < insn.mag b := by
      by_contra h0
      apply hb0
      have hz : insn.mag b = 0 := by omega
      rw [insn.value_eq b, hz]
      cases insn.sign b <;> rfl
    have hquot : 2 ^ 64 ≤ dendOf (insn.xToDivider a b) / insn.mag b :=
      (Nat.le_div_iff_mul_le hmag).mpr hD
    -- only a 64-bit extended division has such a quotient
    have hmaga := insn.mag_lt a
    have hshape : insn.op = .dive ∧ insn.is32bit = false := by
      rw [dendOf_xToDivider] at hD
      unfold width at hD hmaga
      by_cases hop : insn.op = .dive
      · refine ⟨hop, ?_⟩
        by_contra hw
        rw [Bool.not_eq_false] at hw
        simp only [hop, hw, if_true] at hD hmaga
        omega
      · rw [if_neg hop] at hD
        cases hw : insn.is32bit <;>
          simp only [hw, if_true, Bool.false_eq_true, if_false] at hD hmaga <;> omega
    have hfits : ¬insn.Fits ((insn.dividend a).tdiv (insn.value b)) := by
      rw [insn.dividend_eq a b, insn.value_eq b, signed_tdiv]
      generalize dendOf (insn.xToDivider a b) / insn.mag b = q at hquot
      have habs := natAbs_signed (insn.sign a ^^ insn.sign b) q
      unfold Fits width
      rw [hshape.2]
      cases hs : insn.isSigned with
      | false =>
          have hpos : signed (insn.sign a ^^ insn.sign b) q = q := by
            simp [sign, hs, signed]
          simp only [Bool.false_eq_true, if_false, hpos]
          omega
      | true =>
          simp only [if_true, Bool.false_eq_true, if_false]
          omega
    rw [if_neg (by rw [hshape.1]; decide), if_pos hfits]

/-- Every division and every operand: the divider raises `valid` in one cycle, at most 67 cycles
after it was started, and gives the exact quotient or remainder there, or zero and an overflow. -/
theorem divides_exactly (insn : DivInsn) (a b : BitVec 64) {u : Divider}
    (hready : u.count ≠ 64) {input : Nat → Execute1ToDivider}
    (hstart : input 0 = insn.xToDivider a b)
    (hquiet : ∀ n, 1 ≤ n → (input n).valid = false ∧ (input n).flush = false) :
    ∃ n ≤ 67,
      (∀ m, 1 ≤ m → ((Clocked.trace step u input m).dOut.valid = true ↔ m = n)) ∧
      ((Clocked.trace step u input n).dOut.writeRegData,
        (Clocked.trace step u input n).dOut.overflow) = insn.reference a b := by
  have hfirst : Dividing (insn.xToDivider a b) 0 (Clocked.trace step u input 1) := by
    show Dividing _ 0 (step u (input 0))
    rw [hstart]
    exact dividing_start u rfl rfl
  obtain ⟨last, h1, h66, hlast, hbefore⟩ := exists_last u hquiet 65 1 0 rfl le_rfl hfirst
  have hcount : (Clocked.trace step u input last).count = 64 := hlast.counting.count
  refine ⟨last + 1, by omega, ?_, ?_⟩
  · intro m hm
    obtain ⟨k, rfl⟩ : ∃ k, m = k + 1 := ⟨m - 1, by omega⟩
    show ((Clocked.trace step u input k).count == 64) = true ↔ _
    rw [beq_iff_eq, Nat.add_right_cancel_iff]
    constructor
    · intro h64
      rcases Nat.lt_trichotomy k last with hlt | heq | hgt
      · rcases Nat.eq_zero_or_pos k with rfl | hpos
        · exact absurd h64 hready
        · exact absurd h64 (hbefore k hpos hlt)
      · exact heq
      · have hzero := (idle_after u hquiet h1 hlast k hgt).2
        rw [hzero] at h64
        exact absurd h64 (by decide)
    · rintro rfl
      exact hcount
  · show ((Clocked.trace step u input last).oresult, (Clocked.trace step u input last).didOvf) = _
    rcases Nat.lt_or_ge (dendOf (insn.xToDivider a b)) (2 ^ 64 * insn.mag b) with hlt | hge
    · exact output_exact hlast hlt
    · exact output_beyond hlast hge

/-- The divider after reset. -/
def afterReset : Divider :=
  ⟨0, 0, 0, false, 0, false, false, false, false, false, false, false, ⟨false, 0, false⟩⟩

/-- A signed division of minus seven by two, right after reset. -/
theorem divides_exactly_seven :
    ∃ n ≤ 67,
      (∀ m, 1 ≤ m →
        ((Clocked.trace step afterReset
          (fun n => { DivInsn.xToDivider ⟨.div, true, false⟩ (-7) 2 with valid := n == 0 })
          m).dOut.valid = true ↔ m = n)) ∧
      ((Clocked.trace step afterReset
          (fun n => { DivInsn.xToDivider ⟨.div, true, false⟩ (-7) 2 with valid := n == 0 })
          n).dOut.writeRegData,
        (Clocked.trace step afterReset
          (fun n => { DivInsn.xToDivider ⟨.div, true, false⟩ (-7) 2 with valid := n == 0 })
          n).dOut.overflow) =
        (-3, false) :=
  divides_exactly ⟨.div, true, false⟩ (-7) 2 (by decide) rfl
    fun n hn => ⟨by simp [show ¬n = 0 by omega], rfl⟩

end

end Microwatt.Divider
