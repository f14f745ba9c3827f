import Microwatt.Fpu.Compare

/-!
# The shifter and the sticky bit

`shifter_64` shifts R:S in three stages, and X collects what a shift of R to the right loses.
-/

namespace Microwatt.Fpu

/-! ## The stages of the shifter -/

/-- The bit at a position, or zero outside the word. -/
def bitAt {w : Nat} (v : BitVec w) (k : Int) : Bool := decide (0 ≤ k) && v.getLsbD k.toNat

/-- The first stage: by 32 to the left, or by 32 or 64 to the right. -/
def shiftBy32 (inp : BitVec 120) (n : BitVec 2) : BitVec 95 :=
  match n with
  | 0 => inp.extractLsb' 25 95
  | 1 => inp.extractLsb' 0 88 ++ 0#7
  | 2 => 0#64 ++ inp.extractLsb' 89 31
  | _ => 0#32 ++ inp.extractLsb' 57 63

/-- The second stage: by up to three times 8 to the left. -/
def shiftBy8 (s1 : BitVec 95) (n : BitVec 2) : BitVec 71 :=
  match n with
  | 0 => s1.extractLsb' 24 71
  | 1 => s1.extractLsb' 16 71
  | 2 => s1.extractLsb' 8 71
  | _ => s1.extractLsb' 0 71

/-- The third stage: by up to 7 to the left. -/
def shiftBy1 (s2 : BitVec 71) (n : BitVec 3) : BitVec 64 :=
  match n with
  | 0 => s2.extractLsb' 7 64
  | 1 => s2.extractLsb' 6 64
  | 2 => s2.extractLsb' 5 64
  | 3 => s2.extractLsb' 4 64
  | 4 => s2.extractLsb' 3 64
  | 5 => s2.extractLsb' 2 64
  | 6 => s2.extractLsb' 1 64
  | _ => s2.extractLsb' 0 64

theorem shifter64_eq (inp : BitVec 120) (shift : BitVec 7) : shifter64 inp shift =
    shiftBy1 (shiftBy8 (shiftBy32 inp (shift.extractLsb' 5 2)) (shift.extractLsb' 3 2))
      (shift.extractLsb' 0 3) := rfl

theorem eq_of_two_bits (n : BitVec 2) : n = 0 ∨ n = 1 ∨ n = 2 ∨ n = 3 := by
  revert n
  decide

theorem bitAt_nat {w : Nat} (v : BitVec w) (k : Nat) : bitAt v k = v.getLsbD k := by
  simp [bitAt]

theorem bitAt_neg {w : Nat} (v : BitVec w) {k : Int} (hk : k < 0) : bitAt v k = false := by
  simp [bitAt, hk]

theorem bitAt_of_eq {w : Nat} (v : BitVec w) {k : Int} {n : Nat} (h : k = n) :
    bitAt v k = v.getLsbD n := by
  rw [h, bitAt_nat]

theorem getLsbD_shiftBy32 (inp : BitVec 120) (n : BitVec 2) {k : Nat} (hk : k < 95) :
    (shiftBy32 inp n).getLsbD k = bitAt inp (k + 25 - 32 * n.toInt) := by
  rcases eq_of_two_bits n with rfl | rfl | rfl | rfl
  · rw [bitAt_of_eq inp (n := 25 + k) (by simp; omega)]
    simp [shiftBy32, hk]
  · have hone : (1 : BitVec 2).toInt = 1 := rfl
    show (inp.extractLsb' 0 88 ++ 0#7 : BitVec (88 + 7)).getLsbD k = _
    rw [BitVec.getLsbD_append]
    by_cases h : k < 7
    · rw [bitAt_neg inp (by rw [hone]; omega)]
      simp [h]
    · rw [bitAt_of_eq inp (n := k - 7) (by rw [hone]; omega)]
      have hlt : k - 7 < 88 := by omega
      simp [h, hlt]
  · have htwo : (2 : BitVec 2).toInt = -2 := rfl
    show (0#64 ++ inp.extractLsb' 89 31 : BitVec (64 + 31)).getLsbD k = _
    rw [BitVec.getLsbD_append, bitAt_of_eq inp (n := 89 + k) (by rw [htwo]; omega)]
    by_cases h : k < 31
    · simp [h]
    · simp [h, BitVec.getLsbD_of_ge inp (89 + k) (by omega)]
  · have hthree : (3 : BitVec 2).toInt = -1 := rfl
    show (0#32 ++ inp.extractLsb' 57 63 : BitVec (32 + 63)).getLsbD k = _
    rw [BitVec.getLsbD_append, bitAt_of_eq inp (n := 57 + k) (by rw [hthree]; omega)]
    by_cases h : k < 63
    · simp [h]
    · simp [h, BitVec.getLsbD_of_ge inp (57 + k) (by omega)]

theorem getLsbD_shiftBy8 (s1 : BitVec 95) (n : BitVec 2) {k : Nat} (hk : k < 71) :
    (shiftBy8 s1 n).getLsbD k = s1.getLsbD (k + 24 - 8 * n.toNat) := by
  rcases eq_of_two_bits n with rfl | rfl | rfl | rfl <;>
    simp [shiftBy8, hk, Nat.add_comm]

theorem getLsbD_shiftBy1 (s2 : BitVec 71) (n : BitVec 3) {k : Nat} (hk : k < 64) :
    (shiftBy1 s2 n).getLsbD k = s2.getLsbD (k + 7 - n.toNat) := by
  have hcases : n = 0 ∨ n = 1 ∨ n = 2 ∨ n = 3 ∨ n = 4 ∨ n = 5 ∨ n = 6 ∨ n = 7 := by
    revert n
    decide
  rcases hcases with rfl | rfl | rfl | rfl | rfl | rfl | rfl | rfl <;>
    simp [shiftBy1, hk, Nat.add_comm]

/-- The three parts of the signed shift count. -/
theorem toInt_parts (shift : BitVec 7) : shift.toInt =
    32 * (shift.extractLsb' 5 2).toInt + 8 * (shift.extractLsb' 3 2).toNat +
      (shift.extractLsb' 0 3).toNat := by
  revert shift
  decide

theorem getLsbD_shifter64 (inp : BitVec 120) (shift : BitVec 7) {k : Nat} (hk : k < 64) :
    (shifter64 inp shift).getLsbD k = bitAt inp (k + 56 - shift.toInt) := by
  have h8 := (shift.extractLsb' 3 2).isLt
  have h1 := (shift.extractLsb' 0 3).isLt
  rw [shifter64_eq, getLsbD_shiftBy1 _ _ hk, getLsbD_shiftBy8 _ _ (by omega),
    getLsbD_shiftBy32 _ _ (by omega), toInt_parts]
  congr 1
  omega

/-! ## R and S shifted -/

/-- The upper 64 bits of a word that is shifted left, or right by a negative count; nothing is left
of it for a count that is not from -64 to 63. -/
def upperShifted (v : BitVec 120) (count : Int) : BitVec 64 :=
  if -64 ≤ count ∧ count ≤ 63 then
    if 0 ≤ count then (v <<< count.toNat).extractLsb' 56 64
    else (v >>> (-count).toNat).extractLsb' 56 64
  else 0

/-- R:S.  SQRT_11 shifts a one in on top of S, IDIV_EXT_TBH5 at the bottom of R. -/
def shifterInput (r : Reg) : BitVec 120 :=
  match r.state with
  | .sqrt11 => r.r ++ setBit r.s 55 true
  | .idivExtTbh5 => setBit r.r 0 true ++ r.s
  | _ => r.r ++ r.s

theorem shifter64_upperShifted (v : BitVec 120) {count : Int} (hlo : -64 ≤ count)
    (hhi : count ≤ 63) :
    shifter64 v (BitVec.ofInt 7 count) = upperShifted v count := by
  have hcount : (BitVec.ofInt 7 count).toInt = count := by
    rw [BitVec.toInt_ofInt]
    exact Int.bmod_eq_of_le (by omega) (by omega)
  apply BitVec.eq_of_getLsbD_eq
  intro k hk
  rw [getLsbD_shifter64 v _ hk, hcount, upperShifted, if_pos ⟨hlo, hhi⟩]
  split_ifs with hpos
  · have h120 : 56 + k < 120 := by omega
    simp only [BitVec.getLsbD_extractLsb', hk, decide_true, Bool.true_and, BitVec.getLsbD_shiftLeft,
      h120]
    by_cases hlt : 56 + k < count.toNat
    · rw [bitAt_neg v (by omega)]
      simp [hlt]
    · rw [bitAt_of_eq v (n := 56 + k - count.toNat) (by omega)]
      simp [hlt]
  · rw [bitAt_of_eq v (n := (-count).toNat + (56 + k)) (by omega)]
    simp [hk]

/-- What the states do to the shifter's input and to S. -/
structure FeedsShifter (r : Reg) (c : Ctl) : Prop where
  shiftin : c.shiftin = decide (r.state = .sqrt11)
  shiftin0 : c.shiftin0 = decide (r.state = .idivExtTbh5)
  sticky : c.setX = false ∨ c.opselS = .zero

section Control

variable {r : Reg} {c : Ctl} {e : Execute1ToFPU} {done : Bool}

theorem states_feedsShifter (h1 : c.shiftin = false) (h0 : c.shiftin0 = false) (hx : c.setX = false)
    (hs : c.opselS = .zero) : FeedsShifter r (states r e done c) := by
  cases hst : r.state <;> simp only [states, hst] <;>
    first
    | exact ⟨by rw [hst]; exact h1, by rw [hst]; exact h0, Or.inl hx⟩
    | exact ⟨by rw [hst]; exact h1, by rw [hst]; exact h0, Or.inr hs⟩
    | skip
  case idivExtTbh5 => exact ⟨by rw [hst]; exact h1, by rw [hst]; rfl, Or.inl hx⟩
  case sqrt11 =>
    unfold sqrt11
    split_ifs <;> exact ⟨by rw [hst]; rfl, by rw [hst]; exact h0, Or.inl hx⟩
  case doMffs =>
    unfold doMffs
    split <;> exact ⟨by rw [hst]; exact h1, by rw [hst]; exact h0, Or.inl hx⟩
  all_goals
    simp only [doFcmp, doFtdiv, doFcfid, doFcti, doFri, doFadd, doFmadd, doFsel, doIdivmod,
      add3, mult1, fmadd0, fmadd4, fmadd5, fmadd6, div2, div3, div4, div5, div6, ftdiv1, sqrt3,
      sqrt4, sqrt6, sqrt7, sqrt8, sqrt9, sqrt12, intFinal, intCheck, finish, roundUflow, roundOflow,
      rounding, rounding2, rounding3, idivClza3, idivNr0, idivNr1, idivNr2, idivDodiv, idivDiv,
      idivDiv3, idivDiv4, idivDiv5, idivDiv8, idivDiv9, idivExtdiv2, idivExtdiv4, idivExtdiv6,
      idivModadj, remainder, testRemainder]
    split_ifs <;>
      first
      | exact ⟨by rw [hst]; exact h1, by rw [hst]; exact h0, Or.inl hx⟩
      | exact ⟨by rw [hst]; exact h1, by rw [hst]; exact h0, Or.inr hs⟩

theorem ctl_feedsShifter (r : Reg) (e : Execute1ToFPU) (done : Bool) :
    FeedsShifter r (ctl r e done) := by
  have hstates : FeedsShifter r (states r e done (base r e)) := states_feedsShifter rfl rfl rfl rfl
  unfold ctl specialCases
  by_cases hcyc : r.cycle1Ar = true
  · rw [if_pos hcyc]
    extract_lets sc c1
    by_cases him : sc.immedResult = true
    · rw [if_pos him]
      exact ⟨hstates.shiftin, hstates.shiftin0, hstates.sticky⟩
    · rw [if_neg him]
      exact ⟨hstates.shiftin, hstates.shiftin0, hstates.sticky⟩
  · rw [if_neg hcyc]
    exact hstates

/-- The concatenation that the shifter is given. -/
theorem shifterInput_eq (r : Reg) (e : Execute1ToFPU) (done : Bool) :
    (r.r.extractLsb' 1 63 ++ BitVec.ofBool ((ctl r e done).shiftin0 || r.r.getLsbD 0)) ++
        (BitVec.ofBool ((ctl r e done).shiftin || r.s.getLsbD 55) ++ r.s.extractLsb' 0 55) =
      shifterInput r := by
  have hr : ∀ b : Bool, r.r.extractLsb' 1 63 ++ BitVec.ofBool (b || r.r.getLsbD 0) =
      if b then setBit r.r 0 true else r.r := by
    intro b
    apply BitVec.eq_of_getLsbD_eq
    intro k hk
    rw [BitVec.getLsbD_append]
    cases k with
    | zero => cases b <;> simp [-BitVec.getLsbD_eq_getElem, getLsbD_setBit]
    | succ k =>
        have hlt : k < 63 := by omega
        cases b <;> simp [-BitVec.getLsbD_eq_getElem, getLsbD_setBit, hk, hlt, Nat.add_comm]
  have hs : ∀ b : Bool, BitVec.ofBool (b || r.s.getLsbD 55) ++ r.s.extractLsb' 0 55 =
      if b then setBit r.s 55 true else r.s := by
    intro b
    apply BitVec.eq_of_getLsbD_eq
    intro k hk
    rw [BitVec.getLsbD_append]
    rcases Nat.lt_or_ge k 55 with hlt | hge
    · cases b <;> simp [-BitVec.getLsbD_eq_getElem, getLsbD_setBit, hk, hlt, hlt.ne]
    · obtain rfl : k = 55 := by omega
      cases b <;> simp [-BitVec.getLsbD_eq_getElem, getLsbD_setBit]
  have hfeeds := ctl_feedsShifter r e done
  rw [hr, hs, hfeeds.shiftin, hfeeds.shiftin0]
  unfold shifterInput
  cases r.state <;> rfl

theorem shiftRes_eq (r : Reg) (e : Execute1ToFPU) (done : Bool) :
    shiftRes r (ctl r e done) = upperShifted (shifterInput r) r.shift := by
  unfold shiftRes
  rw [shifterInput_eq]
  split_ifs with h
  · exact shifter64_upperShifted _ h.1 h.2
  · rw [upperShifted, if_neg h]

end Control

/-! ## The sticky bit -/

/-- How many of the lowest bits of R go below bit 0, or below the round bit of single precision. -/
def lostBits (r : Reg) : Nat := ((if r.longmask then 29 else 0) - r.shift).toNat

/-- X is what it was, or the highest of the bits that are lost; a count of more than 4096 bits does
not fit in the 13 bits of the source. -/
theorem xShift_eq (r : Reg) (c : Ctl) (hlo : -4096 ≤ r.shift) (hhi : r.shift < 4096)
    (hx : c.setX = true) : xShift r c =
      (c.x || (decide (0 < lostBits r ∧ lostBits r ≤ 4096) &&
        r.r.getLsbD (min (lostBits r) 64 - 1))) := by
  -- the difference in the source is one less than the number of bits
  have hdiff : (if r.longmask then (28 : Int) else -1) - r.shift =
      (if r.longmask then 29 else 0) - r.shift - 1 := by
    split_ifs <;> ring
  have hrange : -4096 < (if r.longmask then (29 : Int) else 0) - r.shift ∧
      (if r.longmask then (29 : Int) else 0) - r.shift ≤ 4096 + 29 := by
    split_ifs <;> omega
  have hlost : lostBits r = ((if r.longmask then (29 : Int) else 0) - r.shift).toNat := rfl
  unfold xShift mshift
  rw [hx, hdiff, hlost, Bool.true_and]
  generalize (if r.longmask then (29 : Int) else 0) - r.shift = n at hrange
  dsimp only
  by_cases hwrap : n ≤ 4096
  · rw [Int.bmod_eq_of_le (by omega) (by omega)]
    by_cases hpos : 0 < n
    · have htest : (0 : Int) ≤ if 64 ≤ n - 1 then 63 else n - 1 := by split_ifs <;> omega
      have hbit : (if 64 ≤ n - 1 then (63 : Int) else n - 1).toNat = min n.toNat 64 - 1 := by
        split_ifs <;> omega
      have hcount : 0 < n.toNat ∧ n.toNat ≤ 4096 := by omega
      simp only [htest, hbit, hcount, and_self, decide_true, if_true, Bool.true_and]
    · have htest : ¬(0 : Int) ≤ if 64 ≤ n - 1 then 63 else n - 1 := by split_ifs <;> omega
      have hcount : ¬(0 < n.toNat ∧ n.toNat ≤ 4096) := by omega
      simp only [htest, hcount, decide_false, Bool.false_eq_true, if_false, Bool.false_and,
        Bool.or_false]
  · have hmod : Int.bmod (n - 1) (2 ^ 13) = n - 1 - 8192 := by
      rw [← Int.sub_bmod_right]
      exact Int.bmod_eq_of_le (by omega) (by omega)
    have htest : ¬(0 : Int) ≤ if 64 ≤ n - 1 - 8192 then 63 else n - 1 - 8192 := by split_ifs <;>
      omega
    have hcount : ¬(0 < n.toNat ∧ n.toNat ≤ 4096) := by omega
    simp only [hmod, htest, hcount, decide_false, Bool.false_eq_true, if_false, Bool.false_and,
      Bool.or_false]

/-- What the shifter and the sticky bit are to give in a cycle. -/
structure ShiftsExactly (r : Reg) (c : Ctl) (x : Bool) : Prop where
  shiftRes : shiftRes r c = upperShifted (shifterInput r) r.shift
  sticky : c.setX = true → (x = true ↔ c.x = true ∨ ∃ k < lostBits r, r.r.getLsbD k = true)

/-- X is 1 already, or no bit is lost that is 1, or the highest of those that are lost is 1. -/
def StickySeen (r : Reg) (c : Ctl) : Prop :=
  c.x = true ∨ (∀ k < lostBits r, r.r.getLsbD k = false) ∨
    (lostBits r ≤ 4096 ∧ r.r.getLsbD (min (lostBits r) 64 - 1) = true)

theorem next_x (r : Reg) (e : Execute1ToFPU) (t : BitVec 19) (m : MultiplyOutput)
    (hx : (ctl r e m.valid).setX = true) : (rin r e t m).x = xShift r (ctl r e m.valid) := by
  have hzero : (ctl r e m.valid).opselS = .zero :=
    (ctl_feedsShifter r e m.valid).sticky.resolve_left (by simp [hx])
  show (nextS r (ctl r e m.valid) m).2 = _
  unfold nextS
  rw [hzero]
  split_ifs <;> rfl

/-- In every cycle the shifter gives R:S shifted, and X is right unless one of the bits of R that
are lost is 1 while the highest of them, the only one that is looked at, is 0. -/
theorem shiftsExactly_iff (r : Reg) (e : Execute1ToFPU) (t : BitVec 19) (m : MultiplyOutput)
    (hlo : -4096 ≤ r.shift) (hhi : r.shift < 4096) :
    ShiftsExactly r (ctl r e m.valid) (rin r e t m).x ↔
      ((ctl r e m.valid).setX = true → StickySeen r (ctl r e m.valid)) := by
  have hres : shiftRes r (ctl r e m.valid) = upperShifted (shifterInput r) r.shift :=
    shiftRes_eq r e m.valid
  have hnext : (ctl r e m.valid).setX = true →
      ((rin r e t m).x = true ↔ (ctl r e m.valid).x = true ∨
      (0 < lostBits r ∧ lostBits r ≤ 4096) ∧ r.r.getLsbD (min (lostBits r) 64 - 1) = true) := by
    intro hx
    rw [next_x r e t m hx, xShift_eq r _ hlo hhi hx, Bool.or_eq_true, Bool.and_eq_true,
      decide_eq_true_eq]
  constructor
  · intro h hx
    by_cases hlost : ∃ k < lostBits r, r.r.getLsbD k = true
    · rcases (hnext hx).mp ((h.sticky hx).mpr (Or.inr hlost)) with hset | ⟨⟨-, hcount⟩, hbit⟩
      · exact Or.inl hset
      · exact Or.inr (Or.inr ⟨hcount, hbit⟩)
    · refine Or.inr (Or.inl fun k hk => ?_)
      by_contra hbit
      exact hlost ⟨k, hk, by simpa using hbit⟩
  · intro h
    refine ⟨hres, fun hx => ?_⟩
    rw [hnext hx]
    constructor
    · rintro (hset | ⟨⟨hpos, -⟩, hbit⟩)
      · exact Or.inl hset
      · exact Or.inr ⟨_, by omega, hbit⟩
    · rintro (hset | ⟨k, hk, hbit⟩)
      · exact Or.inl hset
      · rcases h hx with hset | hnone | hseen
        · exact Or.inl hset
        · rw [hnone k hk] at hbit
          exact absurd hbit Bool.false_ne_true
        · exact Or.inr ⟨⟨by omega, hseen.1⟩, hseen.2⟩

/-- `fadd` of one and `b`. -/
def faddOne (b : BitVec 64) : Execute1ToFPU :=
  { Execute1ToFPU.none with
    valid := true
    op := .fpArith
    insn := 0xfc22182a
    fra := 0x3ff0000000000000
    frb := b
    validA := true
    validB := true
    frt := 33 }

/-- The registers in `ADD_SHIFT`. -/
def addShiftRegs (b : BitVec 64) : Reg := regs (fun _ => 0) .cold (onlyInsn (faddOne b)) 3

/-- 2 ^ -57 is lost by one bit, and seen. -/
theorem shiftsExactly_add : (addShiftRegs 0x3c60000000000000).state = .addShift ∧
    lostBits (addShiftRegs 0x3c60000000000000) = 57 ∧
      ShiftsExactly (addShiftRegs 0x3c60000000000000)
        (ctl (addShiftRegs 0x3c60000000000000) .none false)
        (rin (addShiftRegs 0x3c60000000000000) .none 0 ⟨false, 0, false⟩).x := by
  refine ⟨by decide +kernel, by decide +kernel, ?_⟩
  exact (shiftsExactly_iff _ .none 0 ⟨false, 0, false⟩ (by decide +kernel) (by decide +kernel)).mpr
    fun _ => Or.inr (Or.inr ⟨by decide +kernel, by decide +kernel⟩)

/-- 2 ^ -58 is lost by two bits and not seen, so that its sum with one counts as exact. -/
theorem sticky_missed : (addShiftRegs 0x3c50000000000000).state = .addShift ∧
    ¬ShiftsExactly (addShiftRegs 0x3c50000000000000)
      (ctl (addShiftRegs 0x3c50000000000000) .none false)
      (regs (fun _ => 0) .cold (onlyInsn (faddOne 0x3c50000000000000)) 4).x ∧
    (regs (fun _ => 0) .cold (onlyInsn (faddOne 0x3c50000000000000)) 7).complete = true ∧
    (regs (fun _ => 0) .cold (onlyInsn (faddOne 0x3c50000000000000)) 7).fpscr.getLsbD fpscrFi =
      false := by
  refine ⟨by decide +kernel, fun h => ?_, by decide +kernel, by decide +kernel⟩
  have hx := (h.sticky (by decide +kernel)).mpr (Or.inr ⟨56, by decide +kernel, by decide +kernel⟩)
  exact absurd hx (by decide +kernel)

end Microwatt.Fpu
