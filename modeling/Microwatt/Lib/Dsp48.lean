import Mathlib.Tactic
import Microwatt.Lib.Bits

/-!
# DSP48E1 slices

The arithmetic slice of an FPGA: a signed 25 by 18 bit multiplier, a 48-bit adder with an optional
inversion of the sum, a detector of sums that are all zeros or all ones outside a mask, and a
register that can be left out at each operand, at the product and at the sum.

`Regs.out` and `Regs.next` are what the documentation says of a slice, for the functions of the
adder that are listed in `OpMode`.  A `Slice` is anything that behaves so.

Slices whose sums are passed on with a shift of 17 bits multiply numbers that are wider than one
of them: `cascade_append` is the arithmetic of a step.
-/

namespace Dsp48

/-! ## The primitive -/

/-- OPMODE. -/
inductive OpMode where
  /-- `0000101`: M. -/
  | m
  /-- `0110101`: C + M. -/
  | cPlusM
  /-- `1010101`: PCIN, shifted right by 17, + M. -/
  | shiftPlusM
  /-- `0001111`: A:B + C. -/
  | abPlusC
  /-- `0010011`: PCIN + A:B. -/
  | pcinPlusAb

/-- The registers that are there, and the bits that the pattern detector ignores. -/
structure Generics where
  areg : Bool
  breg : Bool
  creg : Bool
  alumodereg : Bool
  mreg : Bool
  preg : Bool
  mask : BitVec 48

structure PortIn where
  a : BitVec 30
  b : BitVec 18
  c : BitVec 48
  pcin : BitVec 48
  carryin : Bool
  opmode : OpMode
  /-- ALUMODE is `0010`, which inverts the sum, and not `0000`. -/
  invert : Bool
  cea2 : Bool
  ceb2 : Bool
  cec : Bool
  cealumode : Bool
  cem : Bool
  cep : Bool

/-- The outputs; PCOUT is P. -/
structure PortOut where
  p : BitVec 48
  /-- CARRYOUT(3). -/
  carryout : Bool
  patterndetect : Bool
  patternbdetect : Bool

structure Regs where
  a : BitVec 30
  b : BitVec 18
  c : BitVec 48
  invert : Bool
  m : BitVec 48
  o : PortOut

/-- All inputs zero and all enables off. -/
def PortIn.zero : PortIn :=
  ⟨0, 0, 0, 0, false, .m, false, false, false, false, false, false, false⟩

/-- No registers. -/
def Generics.none : Generics := ⟨false, false, false, false, false, false, 0⟩

/-- The product of the low 25 bits of A and of B. -/
def mult (a : BitVec 30) (b : BitVec 18) : BitVec 48 :=
  (a.extractLsb' 0 25).signExtend 48 * b.signExtend 48

/-- The operands of the adder. -/
def addends (op : OpMode) (ab m c pcin : BitVec 48) : BitVec 48 × BitVec 48 :=
  match op with
  | .m => (0, m)
  | .cPlusM => (c, m)
  | .shiftPlusM => (pcin.sshiftRight 17, m)
  | .abPlusC => (ab, c)
  | .pcinPlusAb => (pcin, ab)

/-- The sum, inverted or not. -/
def sum (x y : BitVec 48) (cin invert : Bool) : BitVec 48 :=
  let s := x + y + (BitVec.ofBool cin).setWidth 48
  if invert then ~~~s else s

/-- The carry out of the adder, before the inversion. -/
def carry (x y : BitVec 48) (cin : Bool) : Bool :=
  decide (2 ^ 48 ≤ x.toNat + y.toNat + cin.toNat)

/-- All bits outside the mask are zero. -/
def allZero (mask p : BitVec 48) : Bool := p &&& ~~~mask == 0

/-- All bits outside the mask are one. -/
def allOne (mask p : BitVec 48) : Bool := p ||| mask == BitVec.allOnes 48

namespace Regs

variable (r : Regs) (g : Generics) (i : PortIn)

/-- The operands behind the registers that are there. -/
def opA : BitVec 30 := if g.areg then r.a else i.a

def opB : BitVec 18 := if g.breg then r.b else i.b

def opC : BitVec 48 := if g.creg then r.c else i.c

def opM : BitVec 48 := if g.mreg then r.m else mult (r.opA g i) (r.opB g i)

/-- The outputs before the last register. -/
def comb : PortOut :=
  let (x, y) := addends i.opmode (r.opA g i ++ r.opB g i) (r.opM g i) (r.opC g i) i.pcin
  let p := sum x y i.carryin (if g.alumodereg then r.invert else i.invert)
  ⟨p, carry x y i.carryin, allZero g.mask p, allOne g.mask p⟩

def out : PortOut := if g.preg then r.o else r.comb g i

/-- A rising edge. -/
def next : Regs where
  a := if g.areg && i.cea2 then i.a else r.a
  b := if g.breg && i.ceb2 then i.b else r.b
  c := if g.creg && i.cec then i.c else r.c
  invert := if g.alumodereg && i.cealumode then i.invert else r.invert
  m := if g.mreg && i.cem then mult (r.opA g i) (r.opB g i) else r.m
  o := if g.preg && i.cep then r.comb g i else r.o

end Regs

/-- An implementation that does what the documentation says. -/
structure Slice where
  State : Type
  out : Generics → State → PortIn → PortOut
  next : Generics → State → PortIn → State
  /-- The contents of the registers. -/
  regs : State → Regs
  out_eq : ∀ g s i, out g s i = (regs s).out g i
  next_eq : ∀ g s i, regs (next g s i) = (regs s).next g i

/-- The documentation as an implementation. -/
def Slice.reference : Slice where
  State := Regs
  out := fun g s i => s.out g i
  next := fun g s i => s.next g i
  regs := id
  out_eq := fun _ _ _ => rfl
  next_eq := fun _ _ _ => rfl

/-! ## Signs in front of vectors -/

/-- A vector of `n` copies of a bit. -/
def fill (n : Nat) (b : Bool) : BitVec n :=
  if b then BitVec.allOnes n else 0

theorem toInt_fill {n : Nat} (hn : 0 < n) (b : Bool) : (fill n b).toInt = -b.toNat := by
  cases b with
  | false => simp [fill]
  | true => simp [fill, BitVec.toInt_allOnes, hn]

theorem toInt_fill_append {m n : Nat} (hm : 0 < m) (b : Bool) (x : BitVec n) :
    (fill m b ++ x).toInt = x.toNat - 2 ^ n * b.toNat := by
  rw [BitVec.toInt_append, if_neg (by simpa using hm.ne'), toInt_fill hm]
  ring

/-- A slice that reaches into the sign. -/
theorem extractLsb'_fill_append {m w : Nat} (b : Bool) (x : BitVec w) (k n : Nat) {j : Nat}
    (hw : k + n = w) (hj : j ≤ m) :
    (fill m b ++ x).extractLsb' k (j + n) = fill j b ++ x.extractLsb' k n := by
  apply BitVec.eq_of_getLsbD_eq
  intro l hl
  simp only [BitVec.getLsbD_extractLsb', BitVec.getLsbD_append, hl, decide_true, Bool.true_and]
  by_cases hlt : l < n
  · rw [if_pos (by omega), if_pos hlt, decide_eq_true hlt, Bool.true_and]
  · rw [if_neg (by omega), if_neg hlt]
    cases b with
    | false => simp [fill]
    | true =>
      have hm : k + l - w < m := by omega
      have hlj : l - n < j := by omega
      simp [fill, hm, hlj]

theorem toInt_extractLsb'_fill_append {m w : Nat} (b : Bool) (x : BitVec w) (k n : Nat) {j : Nat}
    (hw : k + n = w) (hj : j ≤ m) (hpos : 0 < j) :
    ((fill m b ++ x).extractLsb' k (j + n)).toInt =
      (x.extractLsb' k n).toNat - 2 ^ n * b.toNat := by
  rw [extractLsb'_fill_append b x k n hw hj, toInt_fill_append hpos]

/-! ## Exact arithmetic -/

theorem signExtend_eq_ofInt {w : Nat} (v : Nat) (x : BitVec w) :
    x.signExtend v = BitVec.ofInt v x.toInt := rfl

theorem mult_eq (a : BitVec 30) (b : BitVec 18) :
    mult a b = BitVec.ofInt 48 ((a.extractLsb' 0 25).toInt * b.toInt) := by
  rw [BitVec.ofInt_mul]
  rfl

theorem extractLsb'_ofInt {w k n : Nat} (h : k + n ≤ w) (x : Int) :
    (BitVec.ofInt w x).extractLsb' k n = BitVec.ofInt n (x / 2 ^ k) := by
  apply BitVec.eq_of_toNat_eq
  have hnonneg : 0 ≤ x % 2 ^ w := Int.emod_nonneg x (by positivity)
  have hdvd : (2 : Int) ^ n ∣ 2 ^ (w - k) := pow_dvd_pow 2 (by omega)
  have hpow : (2 : Int) ^ w = 2 ^ k * 2 ^ (w - k) := by
    rw [← pow_add, Nat.add_sub_cancel' (by omega)]
  have hdiv : x % 2 ^ w / 2 ^ k = x / 2 ^ k - 2 ^ (w - k) * (x / 2 ^ w) := by
    rw [Int.emod_def, hpow, mul_assoc, Int.sub_mul_ediv_left _ _ (by positivity)]
  have hmod : x % 2 ^ w / 2 ^ k % 2 ^ n = x / 2 ^ k % 2 ^ n := by
    rw [hdiv, Int.sub_emod, Int.emod_eq_zero_of_dvd (hdvd.mul_right _), sub_zero, Int.emod_emod]
  zify
  simp only [BitVec.extractLsb'_toNat, BitVec.toNat_ofInt, Nat.shiftRight_eq_div_pow, Nat.cast_pow,
    Nat.cast_ofNat, Int.natCast_emod, Int.natCast_ediv, Int.toNat_of_nonneg hnonneg, hmod]
  exact (Int.toNat_of_nonneg (Int.emod_nonneg _ (by positivity))).symm

theorem signExtend_ofInt {w v : Nat} {x : Int} (hw : 0 < w) (hlo : -2 ^ (w - 1) ≤ x)
    (hhi : x < 2 ^ (w - 1)) : (BitVec.ofInt w x).signExtend v = BitVec.ofInt v x := by
  rw [signExtend_eq_ofInt, BitVec.toInt_ofInt_eq_self hw hlo hhi]

/-- A vector of the remainder by a power of two, below another vector. -/
theorem append_ofInt (m n : Nat) (x y : Int) :
    BitVec.ofInt m x ++ BitVec.ofInt n y =
      BitVec.ofInt (m + n) (2 ^ n * x + y % 2 ^ n) := by
  apply BitVec.eq_of_toNat_eq
  have hx : 0 ≤ x % 2 ^ m := Int.emod_nonneg x (by positivity)
  have hy : 0 ≤ y % 2 ^ n := Int.emod_nonneg y (by positivity)
  have hlt : y % 2 ^ n < 2 ^ n := Int.emod_lt_of_pos y (by positivity)
  have hsplit : (2 ^ n * x + y % 2 ^ n) % 2 ^ (m + n) = 2 ^ n * (x % 2 ^ m) + y % 2 ^ n := by
    have hxlt : x % 2 ^ m < 2 ^ m := Int.emod_lt_of_pos x (by positivity)
    have hdiv := Int.mul_ediv_add_emod x (2 ^ m)
    rw [pow_add, show (2 : Int) ^ n * x + y % 2 ^ n =
      (2 ^ n * (x % 2 ^ m) + y % 2 ^ n) + 2 ^ m * 2 ^ n * (x / 2 ^ m) by
        linear_combination -(2 : Int) ^ n * hdiv, Int.add_mul_emod_self_left]
    refine Int.emod_eq_of_lt (by positivity) ?_
    nlinarith [pow_pos (two_pos : (0 : Int) < 2) n]
  rw [Bits.toNat_append, mul_comm]
  simp only [BitVec.toNat_ofInt, Nat.cast_pow, Nat.cast_ofNat]
  rw [hsplit]
  zify
  rw [Int.toNat_of_nonneg hx, Int.toNat_of_nonneg hy, Int.toNat_of_nonneg (by positivity)]

theorem sshiftRight_ofInt {w : Nat} (hw : 0 < w) {x : Int} (k : Nat) (hlo : -2 ^ (w - 1) ≤ x)
    (hhi : x < 2 ^ (w - 1)) :
    (BitVec.ofInt w x).sshiftRight k = BitVec.ofInt w (x / 2 ^ k) := by
  have hexact := BitVec.toInt_ofInt_eq_self hw hlo hhi
  rw [← BitVec.ofInt_toInt (x := (BitVec.ofInt w x).sshiftRight k),
    BitVec.toInt_sshiftRight, hexact, Int.shiftRight_eq_div_pow]
  norm_cast

/-- Numbers that are near to each other have the same vector only if they are the same. -/
theorem ofInt_eq_ofInt_iff {w : Nat} {x y : Int} (h : |x - y| < 2 ^ w) :
    BitVec.ofInt w x = BitVec.ofInt w y ↔ x = y := by
  refine ⟨fun heq => ?_, fun heq => by rw [heq]⟩
  have hmod : x % 2 ^ w = y % 2 ^ w := by
    have hnat := congrArg (fun v : BitVec w => (v.toNat : Int)) heq
    simp only [BitVec.toNat_ofInt, Nat.cast_pow, Nat.cast_ofNat] at hnat
    rwa [Int.toNat_of_nonneg (Int.emod_nonneg x (by positivity)),
      Int.toNat_of_nonneg (Int.emod_nonneg y (by positivity))] at hnat
  have hdvd : (2 : Int) ^ w ∣ x - y :=
    Int.dvd_of_emod_eq_zero (Int.emod_eq_emod_iff_emod_sub_eq_zero.mp hmod)
  exact sub_eq_zero.mp (Int.eq_zero_of_abs_lt_dvd hdvd h)

/-- A sum that is passed on with a shift of 17 bits: the low bits of the two sums, put together,
are the two sums at their places. -/
theorem cascade_append {x m : Int} (hlo : -2 ^ 47 ≤ x) (hhi : x < 2 ^ 47) {n : Nat} (hn : n ≤ 48) :
    ((BitVec.ofInt 48 x).sshiftRight 17 + BitVec.ofInt 48 m).extractLsb' 0 n ++
        (BitVec.ofInt 48 x).extractLsb' 0 17 =
      BitVec.ofInt (n + 17) (x + 2 ^ 17 * m) := by
  rw [sshiftRight_ofInt (by decide) 17 hlo hhi, ← BitVec.ofInt_add,
    extractLsb'_ofInt (by omega), extractLsb'_ofInt (by decide), append_ofInt]
  congr 1
  omega

theorem allOnes_eq_ofInt (w : Nat) : BitVec.allOnes w = BitVec.ofInt w (-1) := by
  rw [BitVec.ofInt_neg, show BitVec.ofInt w 1 = 1#w from rfl, BitVec.neg_one_eq_allOnes]

/-- A slice that reaches into the upper of two vectors. -/
theorem extractLsb'_append {m n : Nat} (x : BitVec m) (y : BitVec n) (k j : Nat) (h : k + j = n) :
    (x ++ y).extractLsb' k (m + j) = x ++ y.extractLsb' k j := by
  apply BitVec.eq_of_getLsbD_eq
  intro l hl
  simp only [BitVec.getLsbD_extractLsb', BitVec.getLsbD_append, decide_eq_true hl, Bool.true_and]
  by_cases hlt : l < j
  · rw [if_pos (by omega), if_pos hlt, decide_eq_true hlt, Bool.true_and]
  · rw [if_neg (by omega), if_neg hlt]
    congr 1
    omega

/-! ## Sums of two slices -/

theorem toNat_sum (x y : BitVec 48) (cin : Bool) :
    (sum x y cin false).toNat = (x.toNat + y.toNat + cin.toNat) % 2 ^ 48 := by
  have hcin : ((BitVec.ofBool cin).setWidth 48).toNat = cin.toNat := by cases cin <;> rfl
  change (x + y + (BitVec.ofBool cin).setWidth 48).toNat = _
  rw [BitVec.toNat_add, BitVec.toNat_add, hcin, Nat.mod_add_mod]

/-- The carry of one slice into the next makes a sum of 96 bits. -/
theorem append_sum (x₁ x₀ y₁ y₀ : BitVec 48) (cin : Bool) :
    sum x₁ y₁ (carry x₀ y₀ cin) false ++ sum x₀ y₀ cin false =
      (x₁ ++ x₀) + (y₁ ++ y₀) + (BitVec.ofBool cin).setWidth 96 := by
  apply BitVec.eq_of_toNat_eq
  have hcin : ((BitVec.ofBool cin).setWidth 96).toNat = cin.toNat := by cases cin <;> rfl
  have hle := Bool.toNat_le cin
  have hx₁ := x₁.isLt
  have hx₀ := x₀.isLt
  have hy₁ := y₁.isLt
  have hy₀ := y₀.isLt
  rw [BitVec.toNat_add, BitVec.toNat_add, hcin, Bits.toNat_append, Bits.toNat_append,
    Bits.toNat_append, toNat_sum, toNat_sum]
  by_cases hc : 2 ^ 48 ≤ x₀.toNat + y₀.toNat + cin.toNat
  · rw [show carry x₀ y₀ cin = true from decide_eq_true hc, Bool.toNat_true]
    omega
  · rw [show carry x₀ y₀ cin = false from decide_eq_false hc, Bool.toNat_false]
    omega

theorem sum_invert (x y : BitVec 48) (cin invert : Bool) :
    sum x y cin invert = if invert then ~~~sum x y cin false else sum x y cin false := rfl

/-! ## Patterns -/

theorem eq_zero_iff {w : Nat} (x : BitVec w) : x = 0 ↔ ∀ n < w, x.getLsbD n = false := by
  constructor
  · rintro rfl n -
    simp
  · intro h
    apply BitVec.eq_of_getLsbD_eq
    intro n hn
    simp [h n hn]

theorem extractLsb'_not {w k n : Nat} (hk : k + n ≤ w) (x : BitVec w) :
    (~~~x).extractLsb' k n = ~~~x.extractLsb' k n := by
  apply BitVec.eq_of_getLsbD_eq
  intro j hj
  simp only [BitVec.getLsbD_extractLsb', BitVec.getLsbD_not, decide_eq_true hj,
    decide_eq_true (by omega : k + j < w), Bool.true_and]

theorem append_eq_zero_iff {m n : Nat} (x : BitVec m) (y : BitVec n) :
    x ++ y = 0 ↔ x = 0 ∧ y = 0 := by
  have hx : x = 0 ↔ x.toNat = 0 := BitVec.toNat_eq
  have hy : y = 0 ↔ y.toNat = 0 := BitVec.toNat_eq
  have hxy : x ++ y = 0 ↔ (x ++ y).toNat = 0 := BitVec.toNat_eq
  rw [hxy, hx, hy, Bits.toNat_append]
  simp

theorem append_eq_allOnes_iff {m n : Nat} (x : BitVec m) (y : BitVec n) :
    x ++ y = BitVec.allOnes (m + n) ↔ x = BitVec.allOnes m ∧ y = BitVec.allOnes n := by
  rw [← BitVec.not_inj, BitVec.not_append, BitVec.not_allOnes, ← BitVec.not_inj (x := x),
    BitVec.not_allOnes, ← BitVec.not_inj (x := y), BitVec.not_allOnes]
  exact append_eq_zero_iff _ _

/-- The detector of zeros, when the bits that it sees are together. -/
theorem allZero_iff {mask : BitVec 48} {k n : Nat} (hk : k + n ≤ 48)
    (hmask : ∀ j < 48, mask.getLsbD j = false ↔ k ≤ j ∧ j < k + n) (p : BitVec 48) :
    allZero mask p = true ↔ p.extractLsb' k n = 0 := by
  rw [allZero, beq_iff_eq, eq_zero_iff, eq_zero_iff]
  constructor
  · intro h j hj
    have hbit := h (k + j) (by omega)
    have hseen := (hmask (k + j) (by omega)).mpr (by omega)
    rw [BitVec.getLsbD_and, BitVec.getLsbD_not, hseen, Bool.not_false, Bool.and_true,
      decide_eq_true (by omega : k + j < 48), Bool.and_true] at hbit
    rw [BitVec.getLsbD_extractLsb', hbit, Bool.and_false]
  · intro h j hj
    rw [BitVec.getLsbD_and, BitVec.getLsbD_not, decide_eq_true hj, Bool.true_and]
    cases hm : mask.getLsbD j with
    | true => exact Bool.and_false _
    | false =>
      obtain ⟨hle, hlt⟩ := (hmask j hj).mp hm
      have hbit := h (j - k) (by omega)
      rw [BitVec.getLsbD_extractLsb', decide_eq_true (by omega : j - k < n), Bool.true_and,
        Nat.add_sub_cancel' hle] at hbit
      rw [hbit, Bool.false_and]

/-- The detector of ones is the detector of zeros of the inverted sum. -/
theorem allOne_eq_allZero_not (mask p : BitVec 48) : allOne mask p = allZero mask (~~~p) := by
  have hnot : p ||| mask = BitVec.allOnes 48 ↔ ~~~p &&& ~~~mask = 0 := by
    rw [← BitVec.not_inj, BitVec.not_or, BitVec.not_allOnes]
    rfl
  rw [allOne, allZero, Bool.eq_iff_iff, beq_iff_eq, beq_iff_eq, hnot]

theorem allOne_iff {mask : BitVec 48} {k n : Nat} (hk : k + n ≤ 48)
    (hmask : ∀ j < 48, mask.getLsbD j = false ↔ k ≤ j ∧ j < k + n) (p : BitVec 48) :
    allOne mask p = true ↔ p.extractLsb' k n = BitVec.allOnes n := by
  rw [allOne_eq_allZero_not, allZero_iff hk hmask, extractLsb'_not hk,
    show (0 : BitVec n) = ~~~BitVec.allOnes n from BitVec.not_allOnes.symm, BitVec.not_inj]

end Dsp48
