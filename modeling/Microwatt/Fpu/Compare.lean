import Microwatt.Fpu.Step
import Microwatt.Lib.Binary64
import Microwatt.Lib.Bits
import Microwatt.Lib.Fair

/-!
# Floating compare

The path of `fcmpu` and `fcmpo` through the state machine: `DO_FCMP`, which decides from classes,
signs and exponents, and `CMP_1` and `CMP_2`, which subtract the mantissas when these do not decide.
-/

namespace Microwatt.Fpu

open Binary64 (Relation relation)

/-! ## Decoded operands -/

section Decode

variable (w : BitVec 64)

/-- A word as `decode_dp` takes it apart. -/
def operand : FpuReg := decodeDp w true false false

theorem operand_negative : (operand w).negative = Binary64.sign w := rfl

theorem operand_exponent : (operand w).exponent = (Binary64.scale w : ℤ) - 1023 := by
  show (if !(Binary64.expField w != 0) then (-1022 : ℤ) else (Binary64.expField w).toNat - 1023) = _
  unfold Binary64.scale
  by_cases h : Binary64.expField w = 0
  · simp [h]
  · have hpos : (Binary64.expField w).toNat ≠ 0 := fun h0 => h (BitVec.eq_of_toNat_eq h0)
    rw [if_neg (by simpa using h)]
    omega

theorem operand_mantissa : (operand w).mantissa.toNat = Binary64.significand w * 16 := by
  show ((BitVec.ofBool (Binary64.expField w != 0) ++
    Binary64.fracField w).setWidth 64 <<< 4).toNat = _
  have hfrac := (Binary64.fracField w).isLt
  have hsig := Binary64.significand_lt w
  have hword : (BitVec.ofBool (Binary64.expField w != 0) ++ Binary64.fracField w).toNat =
      Binary64.significand w := by
    unfold Binary64.significand
    rw [Bits.toNat_append]
    by_cases h : Binary64.expField w = 0
    · rw [if_pos h, h]
      simp
    · rw [if_neg h, bne_iff_ne.mpr h]
      rfl
  rw [BitVec.toNat_shiftLeft, BitVec.toNat_setWidth, hword, Nat.shiftLeft_eq]
  omega

theorem operand_numClass : (operand w).numClass =
    if Binary64.IsNan w then .nan
    else if Binary64.IsSpecial w then .infinity
    else if Binary64.magnitude w = 0 then .zero
    else .finite := by
  have hexpo : w.extractLsb' 52 11 = Binary64.expField w := rfl
  have hfraco : w.extractLsb' 0 52 = Binary64.fracField w := rfl
  unfold operand decodeDp
  simp only [if_true, hexpo, hfraco]
  simp only [Binary64.magnitude_eq_zero]
  by_cases hsp : Binary64.IsSpecial w
  · have hnz : Binary64.expField w ≠ 0 := by
      rw [show Binary64.expField w = _ from hsp]
      decide
    rw [beq_iff_eq.mpr hsp, bne_iff_ne.mpr hnz, if_pos hsp]
    by_cases hfrac : Binary64.fracField w = 0
    · have hnan : ¬Binary64.IsNan w := fun h => h.2 hfrac
      rw [if_neg hnan, hfrac]
      rfl
    · have hnan : Binary64.IsNan w := ⟨hsp, hfrac⟩
      rw [if_pos hnan, bne_iff_ne.mpr hfrac]
  · have hnan : ¬Binary64.IsNan w := fun h => hsp h.1
    rw [beq_eq_false_iff_ne.mpr hsp, if_neg hnan, if_neg hsp]
    by_cases hexp : Binary64.expField w = 0
    · by_cases hfrac : Binary64.fracField w = 0
      · rw [if_pos ⟨hexp, hfrac⟩, hexp, hfrac]
        rfl
      · rw [if_neg fun h => hfrac h.2, bne_iff_ne.mpr hfrac, hexp]
        rfl
    · rw [if_neg fun h => hexp h.1, bne_iff_ne.mpr hexp]

theorem operand_isSnan : (operand w).isSnan = decide (Binary64.IsSignalling w) := by
  have hbit : (operand w).mantissa.getLsbD qnanBit = (Binary64.fracField w).getLsbD 51 := by
    show ((BitVec.ofBool (Binary64.expField w != 0) ++ Binary64.fracField w).setWidth 64 <<<
      4).getLsbD 55 = _
    simp only [BitVec.getLsbD_shiftLeft, BitVec.getLsbD_setWidth, BitVec.getLsbD_append]
    rfl
  unfold FpuReg.isSnan Binary64.IsSignalling
  rw [hbit, operand_numClass]
  by_cases h : Binary64.IsNan w
  · simp [h]
  · simp only [h, if_false, false_and, decide_false, Bool.and_eq_false_imp, decide_eq_true_eq]
    split_ifs <;> simp

theorem operand_isNan : decide ((operand w).numClass = .nan) = decide (Binary64.IsNan w) := by
  rw [operand_numClass, decide_eq_decide]
  split_ifs <;> simp [*]

end Decode

/-! ## The decision -/

/-- The CR field for the outcome of a comparison. -/
def relationBits : Relation → BitVec 4
  | .less => 0b1000
  | .greater => 0b0100
  | .equal => 0b0010
  | .unordered => 0b0001

/-- The mantissas have to be subtracted. -/
def NeedsMantissas (a b : BitVec 64) : Prop :=
  (operand a).numClass = .finite ∧ (operand b).numClass = .finite ∧
    Binary64.sign a = Binary64.sign b ∧ Binary64.scale a = Binary64.scale b

section Decide

variable {a b : BitVec 64} {r : Reg}

/-- The sign of the difference of two mantissas, and whether it is zero in the bits that are looked
at. -/
theorem mantissa_sub (a b : BitVec 64) (h : r.r = (operand a).mantissa - (operand b).mantissa) :
    r.r.getLsbD 63 = decide (Binary64.significand a < Binary64.significand b) ∧
      (rHiNz r || rLoNz r) = decide (Binary64.significand a ≠ Binary64.significand b) := by
  have ha := Binary64.significand_lt a
  have hb := Binary64.significand_lt b
  have hval : r.r.toNat =
      (2 ^ 64 + Binary64.significand a * 16 - Binary64.significand b * 16) % 2 ^ 64 := by
    rw [h, BitVec.toNat_sub, operand_mantissa, operand_mantissa]
    congr 1
    omega
  refine ⟨?_, ?_⟩
  · rw [Bits.getLsbD_eq_div, hval, decide_eq_decide]
    omega
  · unfold rHiNz rLoNz
    rw [Bool.eq_iff_iff, decide_eq_true_eq, Bool.or_eq_true, bne_iff_ne, bne_iff_ne]
    rw [ne_eq, ne_eq, ← BitVec.toNat_inj, ← BitVec.toNat_inj, BitVec.extractLsb'_toNat,
      BitVec.extractLsb'_toNat, Nat.shiftRight_eq_div_pow, Nat.shiftRight_eq_div_pow, hval]
    show ¬_ / 2 ^ 33 % 2 ^ 25 = 0 ∨ ¬_ / 2 ^ 4 % 2 ^ 29 = 0 ↔ _
    omega

/-- The classes of a word that is not a NaN. -/
theorem class_cases {w : BitVec 64} (h : ¬Binary64.IsNan w) :
    ((operand w).numClass = .infinity ∧
        Binary64.extended w = if Binary64.sign w then ⊥ else ⊤) ∨
      ((operand w).numClass = .zero ∧ Binary64.magnitude w = 0 ∧
        Binary64.extended w = ((Binary64.value w : WithTop ℚ) : WithBot (WithTop ℚ))) ∨
      ((operand w).numClass = .finite ∧ 0 < Binary64.magnitude w ∧
        Binary64.extended w = ((Binary64.value w : WithTop ℚ) : WithBot (WithTop ℚ))) := by
  rw [operand_numClass, if_neg h]
  unfold Binary64.extended
  by_cases hsp : Binary64.IsSpecial w
  · simp [hsp]
  · by_cases hmag : Binary64.magnitude w = 0
    · simp [hsp, hmag]
    · simp [hsp, hmag, Nat.pos_of_ne_zero hmag]

/-- The cascade of `CROP_FCMP` for two finite words that are not zero. -/
theorem compare_finite (ha : r.a = operand a) (hb : r.b = operand b)
    (hca : (operand a).numClass = .finite) (hcb : (operand b).numClass = .finite)
    (hpa : 0 < Binary64.magnitude a) (hpb : 0 < Binary64.magnitude b)
    (hr : NeedsMantissas a b → r.r = (operand a).mantissa - (operand b).mantissa) :
    compare r = relationBits
      (if Binary64.value a < Binary64.value b then .less
      else if Binary64.value b < Binary64.value a then .greater
      else .equal) := by
  unfold compare
  simp only [ha, hb, hca, hcb, operand_negative, operand_exponent, Binary64.value_lt_iff]
  by_cases hsign : Binary64.sign a = Binary64.sign b
  · rcases lt_trichotomy (Binary64.scale a) (Binary64.scale b) with hlt | heq | hlt
    · have hmag := Binary64.magnitude_lt_of_scale_lt hlt
      have hnot : ¬Binary64.scale b < Binary64.scale a := hlt.not_gt
      have hmag' : ¬Binary64.magnitude b < Binary64.magnitude a := hmag.not_gt
      cases hsb : Binary64.sign b <;> simp [hsign, hsb, relationBits, hlt.ne, hnot, hmag, hmag']
    · obtain ⟨hneg, hzero⟩ := mantissa_sub a b (hr ⟨hca, hcb, hsign, heq⟩)
      have hab := Binary64.magnitude_lt_iff_of_scale_eq heq
      have hba := Binary64.magnitude_lt_iff_of_scale_eq heq.symm
      rw [hneg, hzero]
      rcases lt_trichotomy (Binary64.significand a) (Binary64.significand b) with hs | hs | hs
      · cases hsb : Binary64.sign b <;>
          simp [hsign, hsb, relationBits, heq, hab, hba, hs, hs.not_gt]
      · cases hsb : Binary64.sign b <;> simp [hsign, hsb, relationBits, heq, hab, hba, hs]
      · cases hsb : Binary64.sign b <;>
          simp [hsign, hsb, relationBits, heq, hab, hba, hs, hs.not_gt, hs.ne']
    · have hmag := Binary64.magnitude_lt_of_scale_lt hlt
      have hmag' : ¬Binary64.magnitude a < Binary64.magnitude b := hmag.not_gt
      cases hsb : Binary64.sign b <;> simp [hsign, hsb, relationBits, hlt, hmag, hmag']
  · -- a positive and a negative number, neither of them zero
    have hneg : -(Binary64.magnitude a : ℤ) < Binary64.magnitude b := by omega
    have hneg' : -(Binary64.magnitude b : ℤ) < Binary64.magnitude a := by omega
    cases hsa : Binary64.sign a <;> cases hsb : Binary64.sign b
    · exact absurd (hsa.trans hsb.symm) hsign
    · simp [relationBits, hneg', hneg'.not_gt]
    · simp [relationBits, hneg]
    · exact absurd (hsa.trans hsb.symm) hsign

theorem compare_eq (ha : r.a = operand a) (hb : r.b = operand b)
    (hr : NeedsMantissas a b → r.r = (operand a).mantissa - (operand b).mantissa) :
    compare r = relationBits (relation a b) := by
  unfold compare relation
  rw [ha, hb]
  simp only [operand_negative, operand_exponent]
  by_cases hnan : Binary64.IsNan a ∨ Binary64.IsNan b
  · have hclass : (operand a).numClass = .nan ∨ (operand b).numClass = .nan := by
      rw [operand_numClass, operand_numClass]
      rcases hnan with h | h <;> simp [h]
    rw [if_pos hclass, if_pos hnan]
    rfl
  · rw [if_neg hnan]
    obtain ⟨hna, hnb⟩ := not_or.mp hnan
    rcases class_cases hna with ⟨hca, hea⟩ | ⟨hca, hma, hea⟩ | ⟨hca, hma, hea⟩ <;>
      rcases class_cases hnb with ⟨hcb, heb⟩ | ⟨hcb, hmb, heb⟩ | ⟨hcb, hmb, heb⟩
    case inr.inr.inr.inr =>
      rw [hea, heb]
      simp only [WithBot.coe_lt_coe, WithTop.coe_lt_coe]
      rw [← compare_finite ha hb hca hcb hma hmb hr]
      unfold compare
      simp only [ha, hb, operand_negative, operand_exponent]
    all_goals
      have htop (q : ℚ) : ((q : WithTop ℚ) : WithBot (WithTop ℚ)) < ⊤ :=
        WithBot.coe_lt_coe.mpr (WithTop.coe_lt_top q)
      have hpos (w : BitVec 64) : ¬(Binary64.magnitude w : ℤ) < 0 := by omega
      simp only [hca, hcb, hea, heb, WithBot.coe_lt_coe, WithTop.coe_lt_coe, Binary64.value_lt_iff]
      cases hsa : Binary64.sign a <;> cases hsb : Binary64.sign b <;> simp [relationBits, *]

end Decide

/-! ## Bits of the FPSCR -/

section Bits

variable {w : Nat}

theorem getLsbD_setBit (v : BitVec w) (n k : Nat) (b : Bool) (hk : k < w) :
    (setBit v n b).getLsbD k = if k = n then b else v.getLsbD k := by
  unfold setBit
  by_cases h : k = n
  · subst h
    simp [hk]
  · by_cases hlt : k < n
    · simp [hk, h, hlt]
    · have hpos : k - n ≠ 0 := by omega
      simp [hk, h, hlt, hpos, BitVec.getLsbD_ofBool]

theorem getLsbD_setBits {n : Nat} (v : BitVec w) (k i : Nat) (x : BitVec n) (hi : i < w) :
    (setBits v k x).getLsbD i = if k ≤ i ∧ i < k + n then x.getLsbD (i - k) else v.getLsbD i := by
  unfold setBits
  by_cases hlo : k ≤ i
  · by_cases hin : i < k + n
    · have hlt : i - k < n := by omega
      simp [hi, hlo, hin, hlt, hlo.not_gt]
    · have hlt : n ≤ i - k := by omega
      have hge : ¬i - k < n := hlt.not_gt
      simp [hi, hlo, hin, hge, BitVec.getLsbD_of_ge x _ hlt]
  · have hlt : i < k := by omega
    simp [hi, hlo, hlt]

/-- The summary bits are the only ones that the end of a cycle changes. -/
theorem getLsbD_summarize (fx : Bool) (oldExc : BitVec 5) (f : BitVec 32) {k : Nat}
    (hk : k < fpscrVx) : (summarize fx oldExc f).getLsbD k = f.getLsbD k := by
  have hvx : k ≠ fpscrVx := hk.ne
  have hfex : k ≠ fpscrFex := (hk.trans (by decide)).ne
  have hfx : k ≠ fpscrFx := (hk.trans (by decide)).ne
  have hw : k < 32 := hk.trans (by decide)
  unfold summarize
  dsimp only
  split_ifs
  · rw [getLsbD_setBit _ _ _ _ hw, if_neg hfx, getLsbD_setBit _ _ _ _ hw, if_neg hfex,
      getLsbD_setBit _ _ _ _ hw, if_neg hvx]
  · rw [getLsbD_setBit _ _ _ _ hw, if_neg hfex, getLsbD_setBit _ _ _ _ hw, if_neg hvx]

end Bits

/-! ## The instruction -/

/-- `fcmpu`, or `fcmpo` if `ordered` is set, as execute1 passes it on. -/
structure IsFcmp (e : Execute1ToFPU) (ordered : Bool) : Prop where
  valid : e.valid = true
  op : e.op = .fpCmp
  validA : e.validA = true
  validB : e.validB = true
  outCr : e.outCr = true
  opcode : e.insn.extractLsb' 6 3 = 0b00#2 ++ BitVec.ofBool ordered

/-- The unit can take an instruction: it is idle, with none in its second cycle. -/
structure Ready (r : Reg) : Prop where
  state : r.state = .idle
  cycle1Ar : r.cycle1Ar = false

/-- A comparison in progress. -/
structure Comparing (e : Execute1ToFPU) (r : Reg) : Prop where
  insn : r.i.insn = e.insn
  isCmp : r.i.isCmp = true
  fpRc : r.i.fpRc = false
  integerOp : r.i.integerOp = false
  a : r.a = operand e.fra
  b : r.b = operand e.frb
  cycle1Ar : r.cycle1Ar = false
  busy : r.busy = true
  /-- Nothing is left of the instruction before. -/
  taken : r.instrDone = true → outputsSeen r = true
  updateFprf : r.updateFprf = false

/-- What a comparison delivers. -/
structure Outcome where
  field : BitVec 3
  relation : Relation
  vxsnan : Bool
  vxvc : Bool

/-- A comparison is done; its results wait until they can be taken. -/
structure Compared (o : Outcome) (r : Reg) : Prop where
  state : r.complete = false → r.state = .idle
  instrDone : r.instrDone = true
  illegal : r.illegal = false
  cycle1Ar : r.complete = false → r.cycle1Ar = false
  updateFprf : r.updateFprf = false
  writingCr : r.writingCr = true
  crMask : r.crMask = numToFxm o.field
  crResult : r.crResult = relationBits o.relation
  fpcc : r.fpscr.extractLsb' fpscrFu 4 = relationBits o.relation
  vxsnan : r.fpscr.getLsbD fpscrVxsnan = o.vxsnan
  vxvc : r.fpscr.getLsbD fpscrVxvc = o.vxvc
  doIntr : r.complete = false → r.doIntr = false

section Steps

variable {r : Reg} {e : Execute1ToFPU} {t : BitVec 19} {m : MultiplyOutput}

theorem ctl_of_not_cycle1Ar (h : r.cycle1Ar = false) (done : Bool) :
    ctl r e done = states r e done (base r e) := by
  unfold ctl specialCases
  rw [h]
  rfl

/-- What an idle unit does to its control. -/
theorem ctl_idle (hr : Ready r) (done : Bool) : ctl r e done =
    idle (base r e) e.valid (isNanInf e) (isZeroDen e) (execState e) := by
  rw [ctl_of_not_cycle1Ar hr.cycle1Ar]
  unfold states
  rw [hr.state]

/-- An idle unit keeps the FPSCR but for its summary and, in the first cycle, the FPRF of the last
result. -/
theorem Ready.nextFpscr (hr : Ready r) (done : Bool) : nextFpscr r (ctl r e done) =
    summarize false r.oldExc
      (if r.updateFprf then
        setBits r.fpscr fpscrFu
          (resultFlags r.resSign r.resultClass (r.r.getLsbD unitBit && !r.denorm))
      else r.fpscr) := by
  rw [ctl_idle hr]
  unfold Fpu.nextFpscr classFpscr updateFx arithDone idle base
  simp [hr.cycle1Ar]

theorem IsFcmp.execState {ordered : Bool} (he : IsFcmp e ordered) : execState e = .doFcmp := by
  unfold Fpu.execState
  rw [he.op]
  show cmpDecode (e.insn.extractLsb' 6 3) = _
  rw [he.opcode]
  cases ordered <;> rfl

/-- The capture of a comparison. -/
theorem Ready.accept {ordered : Bool} (hr : Ready r) (he : IsFcmp e ordered)
    (hstall : e.stall = false) :
    Comparing e (rin r e t m) ∧ (rin r e t m).state = .doFcmp := by
  have hends : ∀ c, ends r c = false := by
    intro c
    simp [ends, hr.state]
  have harith : isArith e = false := by
    unfold isArith
    rw [he.op]
    rfl
  have hquiet : arithDone r (ctl r e m.valid) = false := by
    rw [ctl_idle hr]
    rfl
  have hspecial : (isNanInf e || isZeroDen e) = false := by
    simp [isNanInf, isZeroDen, harith]
  refine ⟨⟨?_, ?_, ?_, ?_, ?_, ?_, ?_, ?_, ?_, ?_⟩, ?_⟩
  · simp [rin, rinOf, he.valid, captured]
  · simp [rin, rinOf, he.valid, captured, he.outCr]
  · simp [rin, rinOf, he.valid, captured, he.op]
  · simp [rin, rinOf, he.valid, captured, isIntegerOp, he.op]
  · simp [rin, rinOf, ctl_idle hr, idle, base, setOperand, nextOperand, he.valid, adec,
      fpinA, he.op, he.validA]
    rfl
  · simp [rin, rinOf, ctl_idle hr, idle, base, setOperand, nextOperand, he.valid, bdec,
      fpinB, he.op, he.validB]
    rfl
  · simp [rin, rinOf, harith]
  · simp [rin, rinOf, hends, accepts, hr.state, he.valid]
  · simp [rin, rinOf, outputsSeen, hstall]
    grind
  · simp [rin, rinOf, delivers, hquiet]
  · simp [rin, rinOf, hends, ctl_idle hr, idle, he.valid, hspecial, he.execState]

/-- The control of a cycle that ends a comparison. -/
structure DecidesFcmp (c : Ctl) : Prop where
  instrDone : c.instrDone = true
  arithDone : c.arithDone = false
  rclsOp : c.rclsOp = .nop
  crOp : c.crOp = .fcmp
  setCr : c.setCr = true
  setFpcc : c.setFpcc = true
  illegal : c.illegal = false

theorem DecidesFcmp.arithDone_eq {c : Ctl} (hc : DecidesFcmp c) : Fpu.arithDone r c = false := by
  simp [Fpu.arithDone, hc.arithDone, hc.rclsOp]

/-- The FPSCR at the end of a comparison. -/
theorem DecidesFcmp.nextFpscr {c : Ctl} (hc : DecidesFcmp c) (hr : r.updateFprf = false) :
    nextFpscr r c = summarize (updateFx r c) r.oldExc (setBits c.fpscr fpscrFu (compare r)) := by
  unfold Fpu.nextFpscr classFpscr crResult
  simp [hc.rclsOp, hc.setFpcc, hc.crOp, hr]

theorem extractLsb'_summarize (fx : Bool) (oldExc : BitVec 5) (f : BitVec 32) :
    (summarize fx oldExc f).extractLsb' fpscrFu 4 = f.extractLsb' fpscrFu 4 := by
  apply BitVec.eq_of_getLsbD_eq
  intro k hk
  have hlt : fpscrFu + k < fpscrVx := by
    unfold fpscrFu fpscrVx
    omega
  rw [BitVec.getLsbD_extractLsb', BitVec.getLsbD_extractLsb', getLsbD_summarize _ _ _ hlt]

theorem extractLsb'_setBits (f : BitVec 32) (x : BitVec 4) :
    (setBits f fpscrFu x).extractLsb' fpscrFu 4 = x := by
  apply BitVec.eq_of_getLsbD_eq
  intro k hk
  have hw : fpscrFu + k < 32 := by
    unfold fpscrFu
    omega
  have hin : fpscrFu ≤ fpscrFu + k ∧ fpscrFu + k < fpscrFu + 4 := by omega
  rw [BitVec.getLsbD_extractLsb', getLsbD_setBits _ _ _ _ hw, if_pos hin]
  simp [hk]

/-- The FPCC is apart from the exception bits. -/
theorem getLsbD_fpcc (fx : Bool) (oldExc : BitVec 5) (f : BitVec 32) (x : BitVec 4) {k : Nat}
    (hlo : fpscrC ≤ k) (hhi : k < fpscrVx) :
    (summarize fx oldExc (setBits f fpscrFu x)).getLsbD k = f.getLsbD k := by
  have hw : k < 32 := hhi.trans (by decide)
  have hout : ¬(fpscrFu ≤ k ∧ k < fpscrFu + 4) := by
    unfold fpscrFu
    unfold fpscrC at hlo
    omega
  rw [getLsbD_summarize _ _ _ hhi, getLsbD_setBits _ _ _ _ hw, if_neg hout]

/-- The last cycle of a comparison. -/
theorem Comparing.finish {e' : Execute1ToFPU} {rel : Relation} (h : Comparing e r)
    (hstate : r.state ≠ .idle) (hv : e'.valid = false)
    (hc : DecidesFcmp (ctl r e' m.valid)) (hcmp : compare r = relationBits rel) :
    Compared ⟨insnBf e.insn, rel, (ctl r e' m.valid).fpscr.getLsbD fpscrVxsnan,
      (ctl r e' m.valid).fpscr.getLsbD fpscrVxvc⟩ (rin r e' t m) ∧
      (rin r e' t m).complete = !e'.stall := by
  generalize hctl : ctl r e' m.valid = c at hc
  have hdone : nextInstrDone r c = true := by simp [nextInstrDone, hc.instrDone]
  have hends : ends r c = true := by simp [ends, hdone, hstate]
  have hill : nextIllegal r c = false := by simp [nextIllegal, hends, hc.illegal]
  have hfpscr : (rin r e' t m).fpscr =
      summarize (updateFx r c) r.oldExc (setBits c.fpscr fpscrFu (relationBits rel)) := by
    rw [← hcmp]
    exact (congrArg (Fpu.nextFpscr r) hctl).trans (hc.nextFpscr h.updateFprf)
  refine ⟨⟨?_, ?_, ?_, ?_, ?_, ?_, ?_, ?_, ?_, ?_, ?_, ?_⟩, ?_⟩
  · simp [rin, rinOf, hctl, hends]
  · simp [rin, rinOf, hctl, hdone]
  · simp [rin, rinOf, hctl, hill]
  · simp [rin, rinOf, hv]
  · simp [rin, rinOf, hctl, delivers, hc.arithDone_eq]
  · simp [rin, rinOf, hctl, hends, h.isCmp]
  · simp [rin, rinOf, hctl, hends, h.isCmp, h.integerOp, h.insn]
  · simp [rin, rinOf, hctl, h.fpRc, hc.setCr, crResult, hc.crOp, hcmp]
  · rw [hfpscr, extractLsb'_summarize, extractLsb'_setBits]
  · rw [hfpscr, getLsbD_fpcc _ _ _ _ (by decide) (by decide)]
  · rw [hfpscr, getLsbD_fpcc _ _ _ _ (by decide) (by decide)]
  · simp only [rin, rinOf, hctl, hdone, hill]
    grind
  · simp [rin, rinOf, hctl, hdone, hill]

theorem IsFcmp.ordered_eq {ordered : Bool} (he : IsFcmp e ordered) :
    e.insn.getLsbD 6 = ordered := by
  have hbit : (e.insn.extractLsb' 6 3).getLsbD 0 = e.insn.getLsbD 6 := by simp
  rw [← hbit, he.opcode]
  cases ordered <;> rfl

/-- An operand is a signalling NaN. -/
def snanOf (e : Execute1ToFPU) : Bool := (operand e.fra).isSnan || (operand e.frb).isSnan

/-- An operand is a NaN. -/
def nanOf (e : Execute1ToFPU) : Bool :=
  decide ((operand e.fra).numClass = .nan) || decide ((operand e.frb).numClass = .nan)

theorem nanOf_of_snanOf (h : snanOf e = true) : nanOf e = true := by
  unfold snanOf FpuReg.isSnan at h
  unfold nanOf
  grind

/-- The exception bits that `DO_FCMP` sets. -/
theorem doFcmp_fpscr {ordered : Bool} (h : Comparing e r) (he : IsFcmp e ordered) (c : Ctl) :
    (doFcmp r c).fpscr.getLsbD fpscrVxsnan = (c.fpscr.getLsbD fpscrVxsnan || snanOf e) ∧
      (doFcmp r c).fpscr.getLsbD fpscrVxvc = (c.fpscr.getLsbD fpscrVxvc ||
        (ordered && if snanOf e then !r.fpscr.getLsbD fpscrVe else nanOf e)) := by
  have hsn : (r.a.isSnan || r.b.isSnan) = snanOf e := by rw [h.a, h.b, snanOf]
  have hn : (decide (r.a.numClass = .nan) || decide (r.b.numClass = .nan)) = nanOf e := by
    rw [h.a, h.b, nanOf]
  have hbit : r.i.insn.getLsbD 6 = ordered := by rw [h.insn, he.ordered_eq]
  have hset : ∀ (f : BitVec 32) (n k : Nat), k < 32 →
      (setBit f n true).getLsbD k = if k = n then true else f.getLsbD k :=
    fun f n k hk => getLsbD_setBit f n k true hk
  have hne : fpscrVxsnan ≠ fpscrVxvc := by decide
  have hfpscr : (doFcmp r c).fpscr =
      if nanOf e then
        if snanOf e then
          if ordered && !r.fpscr.getLsbD fpscrVe then
            setBit (setBit c.fpscr fpscrVxsnan true) fpscrVxvc true
          else setBit c.fpscr fpscrVxsnan true
        else if ordered then setBit c.fpscr fpscrVxvc true
        else c.fpscr
      else c.fpscr := by
    unfold doFcmp
    rw [hsn, hn, hbit]
    dsimp only
    split_ifs <;> rfl
  rw [hfpscr]
  cases hs : snanOf e
  · cases hnan : nanOf e <;> cases ordered <;>
      simp [hset _ _ fpscrVxsnan (by decide), hset _ _ fpscrVxvc (by decide), hne]
  · rw [nanOf_of_snanOf hs]
    cases hve : r.fpscr.getLsbD fpscrVe <;> cases ordered <;>
      simp [hset _ _ fpscrVxsnan (by decide), hset _ _ fpscrVxvc (by decide), hne, hne.symm]

/-- The control of a cycle in which a comparison goes on. -/
structure GoesOn (r : Reg) (c : Ctl) : Prop where
  instrDone : c.instrDone = (r.instrDone && !outputsSeen r)
  arithDone : c.arithDone = false
  rclsOp : c.rclsOp = .nop
  setFpcc : c.setFpcc = false
  fpscr : c.fpscr = r.fpscr
  setRegInd : c.setRegInd = false
  keepA : c.setA = false ∧ c.setAExp = false ∧ c.setAMant = false ∧ c.aDenorm = r.a.denorm
  keepB : c.setB = false ∧ c.setBMant = false ∧ c.bDenorm = r.b.denorm

theorem Comparing.goesOn {e' : Execute1ToFPU} (h : Comparing e r) (hv : e'.valid = false)
    (hc : GoesOn r (ctl r e' m.valid)) :
    Comparing e (rin r e' t m) ∧ (rin r e' t m).complete = false ∧
      (rin r e' t m).state = (ctl r e' m.valid).state ∧
      (rin r e' t m).fpscr.getLsbD fpscrVxsnan = r.fpscr.getLsbD fpscrVxsnan ∧
      (rin r e' t m).fpscr.getLsbD fpscrVxvc = r.fpscr.getLsbD fpscrVxvc := by
  generalize hctl : ctl r e' m.valid = c at hc
  have harith : Fpu.arithDone r c = false := by simp [Fpu.arithDone, hc.arithDone, hc.rclsOp]
  have hdone : nextInstrDone r c = false := by
    have htaken := h.taken
    simp only [nextInstrDone, hc.instrDone, harith, Bool.or_false]
    cases hd : r.instrDone
    · rfl
    · simp [htaken hd]
  have hends : ends r c = false := by simp [ends, hdone]
  have hfpscr : (rin r e' t m).fpscr = summarize (updateFx r c) r.oldExc r.fpscr := by
    refine (congrArg (Fpu.nextFpscr r) hctl).trans ?_
    unfold Fpu.nextFpscr classFpscr
    simp [hc.rclsOp, hc.setFpcc, hc.fpscr, h.updateFprf]
  refine ⟨⟨?_, ?_, ?_, ?_, ?_, ?_, ?_, ?_, ?_, ?_⟩, ?_, ?_, ?_, ?_⟩
  · simp [rin, rinOf, hv, h.insn]
  · simp [rin, rinOf, hv, h.isCmp]
  · simp [rin, rinOf, hv, h.fpRc]
  · simp [rin, rinOf, hv, h.integerOp]
  · simp [rin, rinOf, hctl, hv, nextOperand, setOperand, hc.keepA, hc.setRegInd, h.a]
  · simp [rin, rinOf, hctl, hv, nextOperand, setOperand, hc.keepB, hc.setRegInd, h.b]
  · simp [rin, rinOf, hv]
  · simp [rin, rinOf, hctl, hends, h.busy]
  · simp [rin, rinOf, hctl, hdone]
  · simp [rin, rinOf, hctl, delivers, harith]
  · simp [rin, rinOf, hctl, hdone]
  · simp [rin, rinOf, hctl, hends]
  · rw [hfpscr, getLsbD_summarize _ _ _ (by decide)]
  · rw [hfpscr, getLsbD_summarize _ _ _ (by decide)]

/-- What the instruction is to deliver. -/
def outcome (e : Execute1ToFPU) (ordered : Bool) (fpscr : BitVec 32) : Outcome where
  field := insnBf e.insn
  relation := relation e.fra e.frb
  vxsnan := fpscr.getLsbD fpscrVxsnan || snanOf e
  vxvc := fpscr.getLsbD fpscrVxvc ||
    (ordered && if snanOf e then !fpscr.getLsbD fpscrVe else nanOf e)

/-- The mantissas are being subtracted. -/
structure Subtracting (e : Execute1ToFPU) (o : Outcome) (r : Reg) : Prop extends Comparing e r where
  complete : r.complete = false
  needs : NeedsMantissas e.fra e.frb
  field : o.field = insnBf e.insn
  relation : o.relation = Binary64.relation e.fra e.frb
  vxsnan : r.fpscr.getLsbD fpscrVxsnan = o.vxsnan
  vxvc : r.fpscr.getLsbD fpscrVxvc = o.vxvc

theorem Comparing.ctl_doFcmp {e' : Execute1ToFPU} (h : Comparing e r) (hs : r.state = .doFcmp)
    (done : Bool) : ctl r e' done = doFcmp r (base r e') := by
  rw [ctl_of_not_cycle1Ar h.cycle1Ar]
  unfold states
  rw [hs]

/-- The condition under which `DO_FCMP` leaves the decision to the mantissas. -/
theorem Comparing.needsMantissas_iff (h : Comparing e r) :
    (decide (r.a.numClass = .finite) && decide (r.b.numClass = .finite) &&
      r.a.negative == r.b.negative && r.a.exponent == r.b.exponent) = true ↔
      NeedsMantissas e.fra e.frb := by
  unfold NeedsMantissas
  rw [h.a, h.b, operand_negative, operand_negative, operand_exponent, operand_exponent]
  simp only [Bool.and_eq_true, decide_eq_true_eq, beq_iff_eq]
  constructor
  · rintro ⟨⟨⟨hca, hcb⟩, hsign⟩, hexp⟩
    exact ⟨hca, hcb, hsign, by omega⟩
  · rintro ⟨hca, hcb, hsign, hscale⟩
    exact ⟨⟨⟨hca, hcb⟩, hsign⟩, by omega⟩

theorem NeedsMantissas.nanOf (h : NeedsMantissas e.fra e.frb) : nanOf e = false := by
  unfold Fpu.nanOf
  rw [h.1, h.2.1]
  rfl

theorem Comparing.doFcmp_needs (h : Comparing e r) (hn : NeedsMantissas e.fra e.frb) (c : Ctl) :
    doFcmp r c = { c with
      opselA := .b, opselB := .zero, setR := true, updateFx := true, crOp := .fcmp
      state := .cmp1 } := by
  have hcond := h.needsMantissas_iff.mpr hn
  have hnan : (decide (r.a.numClass = .nan) || decide (r.b.numClass = .nan)) = false := by
    rw [h.a, h.b]
    exact hn.nanOf
  unfold doFcmp
  rw [hnan, hcond]
  rfl

theorem Comparing.doFcmp_decides (h : Comparing e r) (hn : ¬NeedsMantissas e.fra e.frb) (c : Ctl)
    (harith : c.arithDone = false) (hcls : c.rclsOp = .nop) (hill : c.illegal = false) :
    DecidesFcmp (doFcmp r c) := by
  have hcond := mt h.needsMantissas_iff.mp hn
  unfold doFcmp
  dsimp only
  rw [if_neg hcond]
  split_ifs <;> exact ⟨rfl, harith, hcls, rfl, rfl, rfl, hill⟩

/-- `DO_FCMP`. -/
theorem Comparing.doFcmp {ordered : Bool} {e' : Execute1ToFPU} (h : Comparing e r)
    (he : IsFcmp e ordered) (hs : r.state = .doFcmp) (hv : e'.valid = false) :
    (Compared (outcome e ordered r.fpscr) (rin r e' t m) ∧
        (rin r e' t m).complete = !e'.stall) ∨
      Subtracting e (outcome e ordered r.fpscr) (rin r e' t m) ∧
        (rin r e' t m).state = .cmp1 ∧
        (rin r e' t m).r = (operand e.frb).mantissa := by
  have hstate : r.state ≠ .idle := by
    rw [hs]
    decide
  have hctl : ctl r e' m.valid = Fpu.doFcmp r (base r e') := h.ctl_doFcmp hs m.valid
  have hbase : (base r e').fpscr = r.fpscr := by simp [base, h.cycle1Ar]
  by_cases hneeds : NeedsMantissas e.fra e.frb
  · right
    rw [h.doFcmp_needs hneeds] at hctl
    have hgo : GoesOn r (ctl r e' m.valid) := by
      rw [hctl]
      refine ⟨rfl, rfl, rfl, rfl, hbase, rfl, ⟨rfl, rfl, rfl, ?_⟩, ⟨rfl, rfl, ?_⟩⟩
      · simp [base, hv]
      · simp [base, hv]
    obtain ⟨hcomp, hopen, hnext, hvxsnan, hvxvc⟩ := h.goesOn (t := t) hv hgo
    have hsnan : snanOf e = false := by
      by_contra hs
      have := nanOf_of_snanOf (Bool.not_eq_false _ ▸ hs)
      rw [hneeds.nanOf] at this
      exact Bool.noConfusion this
    refine ⟨⟨hcomp, hopen, hneeds, rfl, rfl, ?_, ?_⟩, ?_, ?_⟩
    · simp [hvxsnan, outcome, hsnan]
    · simp [hvxvc, outcome, hsnan, hneeds.nanOf]
    · rw [hnext, hctl]
    · simp [rin, rinOf, hctl, result, sum, inA, inB, aneg, bneg, inA0, ci, ci0, base, h.b]
  · left
    obtain ⟨hvxsnan, hvxvc⟩ := doFcmp_fpscr h he (base r e')
    rw [hbase] at hvxsnan hvxvc
    have hdec : DecidesFcmp (ctl r e' m.valid) := by
      rw [hctl]
      exact h.doFcmp_decides hneeds _ rfl rfl rfl
    have hend := h.finish (t := t) hstate hv hdec
      (compare_eq h.a h.b fun hn => absurd hn hneeds)
    rw [hctl, hvxsnan, hvxvc] at hend
    exact hend

/-- `CMP_1`. -/
theorem Subtracting.cmp1 {o : Outcome} {e' : Execute1ToFPU} (h : Subtracting e o r)
    (hs : r.state = .cmp1) (hr : r.r = (operand e.frb).mantissa) (hv : e'.valid = false) :
    Subtracting e o (rin r e' t m) ∧ (rin r e' t m).state = .cmp2 ∧
      (rin r e' t m).r = (operand e.fra).mantissa - (operand e.frb).mantissa := by
  have hctl : ctl r e' m.valid = Fpu.cmp1 (base r e') := by
    rw [ctl_of_not_cycle1Ar h.cycle1Ar]
    unfold states
    rw [hs]
  have hgo : GoesOn r (ctl r e' m.valid) := by
    rw [hctl]
    refine ⟨rfl, rfl, rfl, rfl, ?_, rfl, ⟨rfl, rfl, rfl, ?_⟩, ⟨rfl, rfl, ?_⟩⟩
    · simp [Fpu.cmp1, base, h.cycle1Ar]
    · simp [Fpu.cmp1, base, hv]
    · simp [Fpu.cmp1, base, hv]
  obtain ⟨hcomp, hopen, hnext, hvxsnan, hvxvc⟩ := h.toComparing.goesOn (t := t) hv hgo
  refine ⟨⟨hcomp, hopen, h.needs, h.field, h.relation, hvxsnan.trans h.vxsnan, hvxvc.trans h.vxvc⟩,
    ?_, ?_⟩
  · rw [hnext, hctl]
    rfl
  · simp [rin, rinOf, hctl, Fpu.cmp1, result, sum, inA, inB, aneg, bneg, inA0, ci, ci0,
      base, h.a, hr]
    rw [BitVec.sub_eq_add_neg, BitVec.neg_eq_not_add, BitVec.add_assoc]

/-- `CMP_2`. -/
theorem Subtracting.cmp2 {o : Outcome} {e' : Execute1ToFPU} (h : Subtracting e o r)
    (hs : r.state = .cmp2) (hr : r.r = (operand e.fra).mantissa - (operand e.frb).mantissa)
    (hv : e'.valid = false) :
    Compared o (rin r e' t m) ∧ (rin r e' t m).complete = !e'.stall := by
  have hctl : ctl r e' m.valid = Fpu.cmp2 (base r e') := by
    rw [ctl_of_not_cycle1Ar h.cycle1Ar]
    unfold states
    rw [hs]
  have hstate : r.state ≠ .idle := by
    rw [hs]
    decide
  have hdec : DecidesFcmp (ctl r e' m.valid) := by
    rw [hctl]
    exact ⟨rfl, rfl, rfl, rfl, rfl, rfl, rfl⟩
  have hend := h.toComparing.finish (t := t) hstate hv hdec (compare_eq h.a h.b fun _ => hr)
  have hbase : (Fpu.cmp2 (base r e')).fpscr = r.fpscr := by simp [Fpu.cmp2, base, h.cycle1Ar]
  rw [hctl, hbase, h.vxsnan, h.vxvc, ← h.field, ← h.relation] at hend
  exact hend

/-- The results wait while the write stage is stalled. -/
theorem Compared.wait {o : Outcome} {e' : Execute1ToFPU} (h : Compared o r)
    (hc : r.complete = false) (hv : e'.valid = true → e'.stall = false) :
    Compared o (rin r e' t m) ∧ ((rin r e' t m).complete = !e'.stall) := by
  have hready : Ready r := ⟨h.state hc, h.cycle1Ar hc⟩
  have hseen : outputsSeen r = false := by simp [outputsSeen, hc, h.doIntr hc]
  have hends : ∀ c, ends r c = false := by
    intro c
    simp [ends, hready.state]
  have hctl := ctl_idle (e := e') hready m.valid
  have hfpscr : (rin r e' t m).fpscr = summarize false r.oldExc r.fpscr := by
    refine (hready.nextFpscr (e := e') m.valid).trans ?_
    rw [h.updateFprf]
    rfl
  have hdone : ∀ c, c.instrDone = (base r e').instrDone → nextInstrDone r c = true := by
    intro c hcd
    simp [nextInstrDone, hcd, base, h.instrDone, hseen]
  have hill : nextIllegal r (ctl r e' m.valid) = false := by
    rw [hctl]
    simp [nextIllegal, hends, idle, base, h.illegal]
  have hinstr : nextInstrDone r (ctl r e' m.valid) = true := by
    rw [hctl]
    exact hdone _ rfl
  have hquiet : Fpu.arithDone r (ctl r e' m.valid) = false := by
    rw [hctl]
    rfl
  refine ⟨⟨?_, ?_, ?_, ?_, ?_, ?_, ?_, ?_, ?_, ?_, ?_, ?_⟩, ?_⟩
  · intro hcomp
    have hnot : e'.valid = false := by
      by_contra hval
      simp [rin, rinOf, hinstr, hill, hv (by simpa using hval)] at hcomp
    simp [rin, rinOf, hends, hctl, idle, base, hnot, hready.state]
  · simp [rin, rinOf, hinstr]
  · simp [rin, rinOf, hill]
  · simp [rin, rinOf, hinstr, hill]
    grind
  · simp [rin, rinOf, delivers, hquiet]
  · simp [rin, rinOf, hends, h.writingCr, hseen]
  · simp [rin, rinOf, hends, h.crMask]
  · simp [rin, rinOf, hends, hctl, idle, base, h.crResult]
  · rw [hfpscr, extractLsb'_summarize, h.fpcc]
  · rw [hfpscr, getLsbD_summarize _ _ _ (by decide), h.vxsnan]
  · rw [hfpscr, getLsbD_summarize _ _ _ (by decide), h.vxvc]
  · simp only [rin, rinOf, hinstr, hill]
    grind
  · simp [rin, rinOf, hinstr, hill]

end Steps

/-! ## A run -/

section Run

variable (lut : BitVec 10 → BitVec 18) (u : Machine) (ins : Nat → Inputs)

/-- The registers before edge `n`. -/
def regs (n : Nat) : Reg := (Clocked.trace (Machine.step lut) u ins n).reg

/-- There is no reset or flush, and execute1 sends an instruction when the unit is not busy and
nothing stalls. -/
structure Driven : Prop where
  rst : ∀ n, (ins n).rst = false
  flushIn : ∀ n, (ins n).flushIn = false
  valid : ∀ n, (ins n).eIn.valid = true → (regs lut u ins n).busy = false ∧
    (ins n).eIn.stall = false

/-- The instruction that comes in at the first edge completes before edge `n`. -/
structure Completes (n : Nat) : Prop where
  two_le : 2 ≤ n
  complete : (regs lut u ins n).complete = true
  first : ∀ k, 2 ≤ k → k < n → (regs lut u ins k).complete = false

variable {lut u ins}

theorem Driven.regs_succ (h : Driven lut u ins) (n : Nat) : ∃ est mul,
    regs lut u ins (n + 1) = rin (regs lut u ins n) (ins n).eIn est mul := by
  let before := Clocked.trace (Machine.step lut) u ins n
  refine ⟨before.inverseEst, before.multiply.out, ?_⟩
  unfold regs
  rw [Clocked.trace, Machine.step]
  simp only [h.rst, h.flushIn, Bool.or_self, Bool.false_eq_true, if_false]
  rfl

theorem Driven.not_valid (h : Driven lut u ins) {n : Nat} (hb : (regs lut u ins n).busy = true) :
    (ins n).eIn.valid = false := by
  by_contra hv
  have hfree := (h.valid n (by simpa using hv)).1
  rw [hb] at hfree
  exact Bool.noConfusion hfree

/-- A comparison is done within three cycles. -/
theorem Driven.compared {ordered : Bool} (h : Driven lut u ins) (hr : Ready u.reg)
    (he : IsFcmp (ins 0).eIn ordered) :
    ∃ m, 2 ≤ m ∧ m ≤ 4 ∧
      Compared (outcome (ins 0).eIn ordered (regs lut u ins 1).fpscr) (regs lut u ins m) ∧
      ((regs lut u ins m).complete = !(ins (m - 1)).eIn.stall) ∧
      ∀ k, 2 ≤ k → k < m → (regs lut u ins k).complete = false := by
  obtain ⟨est0, mul0, h0⟩ := h.regs_succ 0
  obtain ⟨est1, mul1, h1⟩ := h.regs_succ 1
  obtain ⟨est2, mul2, h2⟩ := h.regs_succ 2
  obtain ⟨est3, mul3, h3⟩ := h.regs_succ 3
  obtain ⟨hcomp, hstate⟩ := Ready.accept (t := est0) (m := mul0) hr he (h.valid 0 he.valid).2
  change Comparing _ (rin (regs lut u ins 0) _ _ _) at hcomp
  change (rin (regs lut u ins 0) _ _ _).state = _ at hstate
  rw [← h0] at hcomp hstate
  rcases hcomp.doFcmp (t := est1) (m := mul1) he hstate (h.not_valid hcomp.busy) with
    ⟨hdone, hcomplete⟩ | ⟨hsub, hs2, hr2⟩
  · rw [← h1] at hdone hcomplete
    exact ⟨2, le_rfl, by omega, hdone, hcomplete, by omega⟩
  · rw [← h1] at hsub hs2 hr2
    obtain ⟨hsub', hs3, hr3⟩ :=
      hsub.cmp1 (t := est2) (m := mul2) hs2 hr2 (h.not_valid hsub.busy)
    rw [← h2] at hsub' hs3 hr3
    obtain ⟨hdone, hcomplete⟩ :=
      hsub'.cmp2 (t := est3) (m := mul3) hs3 hr3 (h.not_valid hsub'.busy)
    rw [← h3] at hdone hcomplete
    refine ⟨4, by omega, le_rfl, hdone, hcomplete, ?_⟩
    intro k hk hlt
    obtain rfl | rfl : k = 2 ∨ k = 3 := by omega
    · exact hsub.complete
    · exact hsub'.complete

/-- The results stay until they are taken. -/
theorem Driven.stays {o : Outcome} (h : Driven lut u ins) {m n : Nat}
    (hm : Compared o (regs lut u ins m))
    (hmn : m ≤ n) (hopen : ∀ k, m ≤ k → k < n → (regs lut u ins k).complete = false) :
    Compared o (regs lut u ins n) := by
  induction n, hmn using Nat.le_induction with
  | base => exact hm
  | succ n hn ih =>
      obtain ⟨est, mul, hnext⟩ := h.regs_succ n
      have hprev := ih fun k hk hlt => hopen k hk (by omega)
      rw [hnext]
      exact (hprev.wait (hopen n hn (by omega)) fun hv => (h.valid n hv).2).1

theorem exists_completes {t : Nat} (ht : 2 ≤ t) (hc : (regs lut u ins t).complete = true) :
    ∃ n ≤ t, Completes lut u ins n := by
  induction t using Nat.strong_induction_on with
  | _ t ih =>
      by_cases hfirst : ∀ k, 2 ≤ k → k < t → (regs lut u ins k).complete = false
      · exact ⟨t, le_rfl, ht, hc, hfirst⟩
      · push Not at hfirst
        obtain ⟨k, hk, hlt, hck⟩ := hfirst
        obtain ⟨n, hn, hcompletes⟩ := ih k hlt hk (by simpa using hck)
        exact ⟨n, by omega, hcompletes⟩

end Run

/-- Every field of the CR data has the result. -/
theorem extractLsb'_copies (x : BitVec 4) {k : Nat} (hk : k < 8) :
    ((x ++ (x ++ (x ++ x))) ++ (x ++ (x ++ (x ++ x)))).extractLsb' (k * 4) 4 = x := by
  revert x
  interval_cases k <;> decide

/-- `fcmpu` and `fcmpo` write the relation of their operands to the CR field and to FPCC and set the
exception bits for NaNs, and complete once the write stage does not stall. -/
theorem fcmp_relation (lut : BitVec 10 → BitVec 18) (u : Machine) (ins : Nat → Inputs)
    (ordered : Bool) (hready : Ready u.reg) (hdriven : Driven lut u ins)
    (hinsn : IsFcmp (ins 0).eIn ordered) :
    let e := (ins 0).eIn
    let rel := relation e.fra e.frb
    let before := (regs lut u ins 1).fpscr
    let snan := decide (Binary64.IsSignalling e.fra ∨ Binary64.IsSignalling e.frb)
    let nan := decide (Binary64.IsNan e.fra ∨ Binary64.IsNan e.frb)
    (∀ n, Completes lut u ins n →
      (wOut (regs lut u ins n)).writeCrEnable = true ∧
      (wOut (regs lut u ins n)).writeCrMask = numToFxm (insnBf e.insn) ∧
      (∀ k < 8, (wOut (regs lut u ins n)).writeCrData.extractLsb' (k * 4) 4 = relationBits rel) ∧
      (regs lut u ins n).fpscr.extractLsb' fpscrFu 4 = relationBits rel ∧
      (regs lut u ins n).fpscr.getLsbD fpscrVxsnan = (before.getLsbD fpscrVxsnan || snan) ∧
      (regs lut u ins n).fpscr.getLsbD fpscrVxvc = (before.getLsbD fpscrVxvc ||
        (ordered && if snan then !before.getLsbD fpscrVe else nan))) ∧
    (∀ t, 3 ≤ t → (ins t).eIn.stall = false → ∃ n ≤ t + 1, Completes lut u ins n) ∧
    relation e.frb e.fra = rel.swap := by
  intro e rel before snan nan
  have hsnan : snanOf e = snan := by
    unfold snanOf
    rw [operand_isSnan, operand_isSnan]
    exact (Bool.decide_or _ _).symm
  have hnan : nanOf e = nan := by
    unfold nanOf
    rw [operand_isNan, operand_isNan]
    exact (Bool.decide_or _ _).symm
  obtain ⟨m, hm2, hm4, hdone, hcomplete, hopen⟩ := hdriven.compared hready hinsn
  refine ⟨?_, ?_, Binary64.relation_swap _ _⟩
  · intro n hn
    have hmn : m ≤ n := by
      by_contra hlt
      have hno := hopen n hn.two_le (by omega)
      rw [hn.complete] at hno
      exact Bool.noConfusion hno
    have hout := hdriven.stays hdone hmn fun k hk hlt => hn.first k (by omega) hlt
    refine ⟨?_, hout.crMask, ?_, hout.fpcc, ?_, ?_⟩
    · simp [wOut, hout.writingCr, hn.complete]
    · intro k hk
      rw [wOut, hout.crResult]
      exact extractLsb'_copies _ hk
    · rw [hout.vxsnan, ← hsnan]
      rfl
    · rw [hout.vxvc, ← hsnan, ← hnan]
      rfl
  · intro t ht hstall
    by_cases hbefore : ∃ k, 2 ≤ k ∧ k ≤ t ∧ (regs lut u ins k).complete = true
    · obtain ⟨k, hk, hkt, hck⟩ := hbefore
      obtain ⟨n, hn, hc⟩ := exists_completes hk hck
      exact ⟨n, by omega, hc⟩
    · have hno : ∀ k, 2 ≤ k → k ≤ t → (regs lut u ins k).complete = false := by
        intro k hk hkt
        by_contra hck
        exact hbefore ⟨k, hk, hkt, by simpa using hck⟩
      refine exists_completes (t := t + 1) (by omega) ?_
      obtain rfl | hle : m = t + 1 ∨ m ≤ t := by omega
      · rw [hcomplete]
        simp [hstall]
      · obtain ⟨est, mul, hnext⟩ := hdriven.regs_succ t
        have hout := hdriven.stays hdone hle fun k hk hlt => hno k (by omega) (by omega)
        rw [hnext, (hout.wait (hno t (by omega) le_rfl) fun hv => (hdriven.valid t hv).2).2, hstall]
        rfl

/-- No instruction. -/
def Execute1ToFPU.none : Execute1ToFPU where
  valid := false
  op := .other
  itag := ⟨0, false⟩
  insn := 0
  single := false
  isSigned := false
  feMode := 0
  fra := 0
  frb := 0
  frc := 0
  validA := false
  validB := false
  validC := false
  frt := 0
  rc := false
  m32b := false
  outCr := false
  oe := false
  xerc := ⟨false, false, false, false, false⟩
  stall := false

/-- The registers with zeroes. -/
def Reg.cold : Reg where
  i := captured .none 0
  state := .idle
  execState := .idle
  busy := false
  f2stall := false
  instrDone := false
  complete := false
  doIntr := false
  illegal := false
  cycle1Ar := false
  isNanInf := false
  first := false
  count := 0
  doingFtdiv := 0
  regsel := .zero
  fpscr := 0
  commFpscr := 0
  oldExc := 0
  a := operand 0
  b := operand 0
  c := operand 0
  r := 0
  s := 0
  x := false
  p := 0
  y := 0
  aHi := 0
  aLo := 0
  resultSign := false
  resultClass := .zero
  resultExp := 0
  shift := 0
  longmask := false
  addBsmall := false
  tiny := false
  denorm := false
  invalid := false
  intOvf := false
  divClose := false
  incQuot := false
  updateFprf := false
  spResult := false
  resInt := false
  resSign := false
  nsnanResult := false
  writingFpr := false
  writingCr := false
  writingXer := false
  writeReg := 0
  completeTag := ⟨0, false⟩
  crResult := 0
  crMask := 0
  xercResult := ⟨false, false, false, false, false⟩

/-- The unit with its registers cleared. -/
def Machine.cold : Machine where
  reg := .cold
  multiply := ⟨⟨false, 0, 0, 0, false, false⟩, ⟨false, 0⟩, ⟨false, 0⟩, false⟩
  inverseEst := 0

/-- `fcmpo cr1` of a denormal and one. -/
def fcmpo : Execute1ToFPU :=
  { Execute1ToFPU.none with
    valid := true
    op := .fpCmp
    insn := 0xfc800040
    fra := 0x000fffffffffffff
    frb := 0x3ff0000000000000
    validA := true
    validB := true
    outCr := true }

/-- A run with this instruction only. -/
def onlyInsn (e : Execute1ToFPU) (n : Nat) : Inputs :=
  ⟨false, false, if n = 0 then e else .none⟩

theorem fcmp_relation_denormal : ∃ n ≤ 4,
    (wOut (regs (fun _ => 0) .cold (onlyInsn fcmpo) n)).writeCrData.extractLsb' 0 4 = 0b1000 := by
  have hdriven : Driven (fun _ => 0) .cold (onlyInsn fcmpo) := by
    refine ⟨fun _ => rfl, fun _ => rfl, ?_⟩
    intro n hv
    by_cases hn : n = 0
    · subst hn
      exact ⟨rfl, rfl⟩
    · simp [onlyInsn, hn, Execute1ToFPU.none] at hv
  have hrun := fcmp_relation (fun _ => 0) .cold (onlyInsn fcmpo) true ⟨rfl, rfl⟩ hdriven
    ⟨rfl, rfl, rfl, rfl, rfl, rfl⟩
  obtain ⟨n, hn, hcompletes⟩ := hrun.2.1 3 le_rfl rfl
  have hcr := (hrun.1 n hcompletes).2.2.1 0 (by decide)
  have hless : relation fcmpo.fra fcmpo.frb = .less := by
    have hlt : Binary64.value fcmpo.fra < Binary64.value fcmpo.frb :=
      (Binary64.value_lt_iff _ _).mpr
        (Int.ofNat_lt.mpr (Binary64.magnitude_lt_of_scale_lt (by decide)))
    have hext : Binary64.extended fcmpo.fra < Binary64.extended fcmpo.frb :=
      WithBot.coe_lt_coe.mpr (WithTop.coe_lt_coe.mpr hlt)
    unfold relation
    rw [if_neg (by decide), if_pos hext]
  refine ⟨n, hn, hcr.trans ?_⟩
  show relationBits (relation fcmpo.fra fcmpo.frb) = _
  rw [hless]
  rfl

end Microwatt.Fpu
