import Microwatt.Fpu.Compare

/-!
# Computing a result

The states through which an arithmetic instruction goes between its capture and its end, and the
exceptions that they raise.
-/

namespace Microwatt.Fpu

/-! ## States -/

/-- The states of arithmetic instructions and of conversions from integers. -/
def computes : State → Bool
  | .idle | .doIllegal | .doMcrfs | .doMtfsb | .doMtfsfi | .doMffs | .doMtfsf | .doFmr | .doFmrg
  | .doFcmp | .doFtdiv | .doFtsqrt | .doFsel | .doIdivmod | .cmp1 | .cmp2 | .ftdiv1
  | .idivNormb | .idivNormb2 | .idivNormb3 | .idivClza | .idivClza2 | .idivClza3 | .idivNr0
  | .idivNr1 | .idivNr2 | .idivUse05 | .idivDodiv | .idivSh32 | .idivDiv | .idivDiv2 | .idivDiv3
  | .idivDiv4 | .idivDiv5 | .idivDiv6 | .idivDiv7 | .idivDiv8 | .idivDiv9 | .idivExtTbh
  | .idivExtTbh2 | .idivExtTbh3 | .idivExtTbh4 | .idivExtTbh5 | .idivExtdiv | .idivExtdiv1
  | .idivExtdiv2 | .idivExtdiv3 | .idivExtdiv4 | .idivExtdiv5 | .idivExtdiv6 | .idivModadj
  | .idivModadjNeg | .idivModsub | .idivDivadj | .idivOvfchk | .idivDone | .idivZero => false
  | _ => true

/-- What the state leaves alone. -/
structure Keeps (c c' : Ctl) : Prop where
  state : computes c'.state = true
  instrDone : c'.instrDone = c.instrDone
  writingFpr : c'.writingFpr = c.writingFpr
  illegal : c'.illegal = c.illegal
  illegalReg : c'.illegalReg = c.illegalReg
  invalidReg : c'.invalidReg = c.invalidReg
  zeroDivide : c'.zeroDivide = c.zeroDivide
  setFpcc : c'.setFpcc = c.setFpcc

section

variable {r : Reg} {e : Execute1ToFPU} {done : Bool} {c : Ctl}

theorem states_keeps (hc : c.state = r.state) (h : computes r.state = true)
    (hx : computes r.execState = true) : Keeps c (states r e done c) := by
  cases hs : r.state <;> (try (rw [hs] at h; cases h; done)) <;> simp only [states, hs]
  all_goals
    rw [hs] at hc
    simp only [doSpecial, doFcti, doFcfid, doFrsp, doFrsp2, doFri, doFadd, doFmul, doFdiv, doFsqrt,
      doFmadd, doFre, fri1, add1, addShift, add2, add2b, add3, mult1, fmadd0, fmadd1,
      fmadd2, fmadd3, fmadd4, fmadd5, fmadd6, div2, div3, div4, div5, div6, fre1, sqrtOdd, rsqrt1,
      sqrt1, sqrt2, sqrt3, sqrt4, sqrt5, sqrt6, sqrt7, sqrt8, sqrt9, sqrt10, sqrt11, sqrt12,
      intShift, intRound, intIshift, intFinal, intCheck, intOflow, finish, normalize, roundUflow,
      roundOflow, rounding, roundInc, rounding2, rounding3, denorm, renormA, renormB, renormC,
      renorm1, renorm2]
    (try split_ifs) <;> constructor <;> first | rfl | exact hx | simp [hc, computes]

end

/-! ## Exceptions -/

/-- The exceptions that have an enable bit. -/
inductive Exc where
  | invalid
  | overflow
  | underflow
  | zeroDivide
  | inexact
deriving DecidableEq

/-- The enable bit in an FPSCR. -/
def Exc.enabled (x : Exc) (f : BitVec 32) : Bool :=
  match x with
  | .invalid => f.getLsbD fpscrVe
  | .overflow => f.getLsbD fpscrOe
  | .underflow => f.getLsbD fpscrUe
  | .zeroDivide => f.getLsbD fpscrZe
  | .inexact => f.getLsbD fpscrXe

/-- The exception bits; there are nine for invalid operations. -/
def Exc.bits (x : Exc) : List Nat :=
  match x with
  | .invalid =>
    [fpscrVxsnan, fpscrVxisi, fpscrVxidi, fpscrVxzdz, fpscrVximz, fpscrVxvc, fpscrVxsoft,
      fpscrVxsqrt, fpscrVxcvi]
  | .overflow => [fpscrOx]
  | .underflow => [fpscrUx]
  | .zeroDivide => [fpscrZx]
  | .inexact => [fpscrXx]

def Exc.isSet (x : Exc) (f : BitVec 32) : Bool :=
  x.bits.any fun k => f.getLsbD k

/-- The converted number is out of range, in `INT_CHECK`. -/
def outOfRange (r : Reg) : Bool :=
  let msb := if !r.i.insn.getLsbD 9 then r.r.getLsbD 31 else r.r.getLsbD 63
  !r.i.insn.getLsbD 8 && msb != r.resultSign || r.i.insn.getLsbD 8 && !msb

/-- The rounding loses something, in `ROUNDING`. -/
def losesBits (r : Reg) : Bool :=
  (fpRounding r.r r.x r.i.singlePrec r.i.roundMode r.resultSign).2

/-- The exceptions that the operands raise, in the second cycle. -/
def Exc.special (x : Exc) (r : Reg) : Bool :=
  match x with
  | .invalid => (scinfo r).invalid
  | .zeroDivide => (scinfo r).zeroDivide
  | _ => false

/-- The exceptions that a state raises. -/
def Exc.arises (x : Exc) (r : Reg) : Bool :=
  match x with
  | .invalid => decide (r.state = .intOflow) || (decide (r.state = .intCheck) && outOfRange r)
  | .overflow => decide (r.state = .roundOflow)
  | .underflow =>
    (decide (r.state = .roundUflow) && r.fpscr.getLsbD fpscrUe) ||
      (decide (r.state = .rounding) && losesBits r && r.tiny)
  | .zeroDivide => false
  | .inexact =>
    (decide (r.state = .rounding) && losesBits r) ||
      (decide (r.state = .roundOflow) && !r.fpscr.getLsbD fpscrOe) ||
      ((decide (r.state = .intFinal) && !needCheck r || decide (r.state = .intCheck) &&
        !outOfRange r) &&
        r.fpscr.getLsbD fpscrFi)

/-- The exceptions that a cycle raises. -/
def Exc.raised (x : Exc) (r : Reg) : Bool :=
  if r.cycle1Ar then x.special r else x.arises r

/-! ### Exception bits -/

section

variable {x : Exc} {f : BitVec 32}

theorem Exc.bits_lt : ∀ k ∈ x.bits, k < 32 := by
  cases x <;> decide

theorem Exc.isSet_congr {f' : BitVec 32} (h : ∀ k ∈ x.bits, f'.getLsbD k = f.getLsbD k) :
    x.isSet f' = x.isSet f := by
  unfold Exc.isSet
  rw [Bool.eq_iff_iff]
  simp only [List.any_eq_true]
  exact exists_congr fun k => and_congr_right fun hk => by rw [h k hk]

/-- A bit of no exception. -/
theorem Exc.isSet_setBit {n : Nat} {b : Bool} (hn : n ∉ x.bits) :
    x.isSet (setBit f n b) = x.isSet f := by
  refine Exc.isSet_congr fun k hk => ?_
  rw [getLsbD_setBit _ _ _ _ (Exc.bits_lt k hk), if_neg fun hc : k = n => hn (hc ▸ hk)]

/-- A bit of an exception. -/
theorem Exc.isSet_mark {y : Exc} {n : Nat} (hn : n ∈ y.bits) (x : Exc) (f : BitVec 32) :
    x.isSet (setBit f n true) = (x.isSet f || decide (x = y)) := by
  by_cases hx : x = y
  · subst hx
    have hset : x.isSet (setBit f n true) = true := by
      unfold Exc.isSet
      rw [List.any_eq_true]
      exact ⟨n, hn, by rw [getLsbD_setBit _ _ _ _ (Exc.bits_lt n hn), if_pos rfl]⟩
    simp [hset]
  · have hapart : ∀ k ∈ y.bits, k ∉ x.bits := by
      cases x <;> cases y <;> first | exact absurd rfl hx | decide
    rw [Exc.isSet_setBit (hapart n hn)]
    simp [hx]

theorem Exc.isSet_or (f g : BitVec 32) : x.isSet (f ||| g) = (x.isSet f || x.isSet g) := by
  unfold Exc.isSet
  rw [Bool.eq_iff_iff]
  simp only [List.any_eq_true, BitVec.getLsbD_or, Bool.or_eq_true]
  constructor
  · rintro ⟨k, hk, h | h⟩
    · exact Or.inl ⟨k, hk, h⟩
    · exact Or.inr ⟨k, hk, h⟩
  · rintro (⟨k, hk, h⟩ | ⟨k, hk, h⟩)
    · exact ⟨k, hk, Or.inl h⟩
    · exact ⟨k, hk, Or.inr h⟩

theorem Exc.isSet_zero : x.isSet 0 = false := by
  cases x <;> decide

theorem isSet_setRound (round : Bool × Bool) : x.isSet (setRound f round) = x.isSet f := by
  unfold setRound
  rw [Exc.isSet_setBit (by cases x <;> decide), Exc.isSet_setBit (by cases x <;> decide)]

end

/-! ### What a state does -/

/-- The states that assign bits of the FPSCR. -/
def marks : State → Bool
  | .intRound | .intFinal | .intCheck | .intOflow | .roundUflow | .roundOflow | .rounding => true
  | _ => false

/-- An FPSCR with the exceptions of a cycle, and the same control bits. -/
structure Marked (r : Reg) (c c' : Ctl) : Prop where
  isSet : ∀ x : Exc, x.isSet c'.fpscr = (x.isSet r.fpscr || x.arises r)
  control : ∀ k < 8, c'.fpscr.getLsbD k = r.fpscr.getLsbD k
  invalid : c'.invalid = (c.invalid || Exc.invalid.arises r)

section

variable {r : Reg} {e : Execute1ToFPU} {done : Bool} {c : Ctl}

theorem states_unmarked (e : Execute1ToFPU) (done : Bool) (c : Ctl) (h : computes r.state = true)
    (hm : marks r.state = false) :
    (states r e done c).fpscr = c.fpscr ∧ (states r e done c).invalid = c.invalid := by
  cases hs : r.state <;> (try (rw [hs] at h; cases h; done)) <;>
    (try (rw [hs] at hm; cases hm; done)) <;> simp only [states, hs]
  all_goals
    simp only [doSpecial, doFcti, doFcfid, doFrsp, doFrsp2, doFri, doFadd, doFmul, doFdiv, doFsqrt,
      doFmadd, doFre, fri1, add1, addShift, add2, add2b, add3, mult1, fmadd0, fmadd1,
      fmadd2, fmadd3, fmadd4, fmadd5, fmadd6, div2, div3, div4, div5, div6, fre1, sqrtOdd, rsqrt1,
      sqrt1, sqrt2, sqrt3, sqrt4, sqrt5, sqrt6, sqrt7, sqrt8, sqrt9, sqrt10, sqrt11, sqrt12,
      intShift, intIshift, finish, normalize, roundInc, rounding2, rounding3, denorm, renormA,
      renormB, renormC, renorm1, renorm2]
    constructor <;> (try split_ifs) <;> first | rfl | trivial

theorem arises_of_unmarked (x : Exc) (hm : marks r.state = false) :
    x.arises r = false := by
  have hne : ∀ s, marks s = true → decide (r.state = s) = false := by
    intro s hs
    refine decide_eq_false fun hc => ?_
    rw [hc, hs] at hm
    cases hm
  unfold Exc.arises
  rw [hne .intOflow rfl, hne .intCheck rfl, hne .roundOflow rfl, hne .roundUflow rfl,
    hne .rounding rfl, hne .intFinal rfl]
  cases x <;> rfl

theorem control_setBit (f : BitVec 32) {n : Nat} (b : Bool) (hn : 8 ≤ n) {k : Nat} (hk : k < 8) :
    (setBit f n b).getLsbD k = f.getLsbD k := by
  rw [getLsbD_setBit _ _ _ _ (by omega), if_neg (by omega)]

theorem control_setRound (f : BitVec 32) (round : Bool × Bool) {k : Nat} (hk : k < 8) :
    (setRound f round).getLsbD k = f.getLsbD k := by
  unfold setRound
  rw [control_setBit _ _ (by decide) hk, control_setBit _ _ (by decide) hk]

theorem marked_intRound (hc : c.fpscr = r.fpscr)
    (hs : r.state = .intRound) : Marked r c (intRound r c) := by
  refine ⟨fun x => ?_, fun k hk => ?_, ?_⟩
  · simp only [intRound, isSet_setRound, hc]
    cases x <;> simp [Exc.arises, hs]
  · simp only [intRound, control_setRound _ _ hk, hc]
  · simp [intRound, Exc.arises, hs]

/-- An inexact conversion. -/
theorem isSet_inexact (x : Exc) (f : BitVec 32) (b : Bool) :
    x.isSet (if b then setBit f fpscrXx true else f) =
      (x.isSet f || (decide (x = .inexact) && b)) := by
  cases b with
  | false => simp
  | true => rw [if_pos rfl, Exc.isSet_mark (y := .inexact) (by decide), Bool.and_true]

theorem marked_intFinal (hc : c.fpscr = r.fpscr)
    (hs : r.state = .intFinal) : Marked r c (intFinal r c) := by
  unfold intFinal
  dsimp only
  cases hn : needCheck r with
  | true =>
      refine ⟨fun x => ?_, fun k _ => ?_, ?_⟩
      · simp only [if_true, hc]
        cases x <;> simp [Exc.arises, hs, hn]
      · simp only [if_true, hc]
      · simp [Exc.arises, hs]
  | false =>
      refine ⟨fun x => ?_, fun k hk => ?_, ?_⟩
      · simp only [Bool.false_eq_true, if_false, hc, isSet_inexact]
        cases x <;> simp [Exc.arises, hs, hn]
      · simp only [Bool.false_eq_true, if_false, hc]
        split_ifs
        · exact control_setBit _ _ (by decide) hk
        · rfl
      · simp [Exc.arises, hs]

theorem marked_intOflow (hc : c.fpscr = r.fpscr)
    (hs : r.state = .intOflow) : Marked r c (intOflow c) := by
  refine ⟨fun x => ?_, fun k hk => ?_, ?_⟩
  · simp only [intOflow, hc, Exc.isSet_mark (y := .invalid) (show fpscrVxcvi ∈ _ by decide)]
    cases x <;> simp [Exc.arises, hs]
  · simp only [intOflow, hc]
    exact control_setBit _ _ (by decide) hk
  · simp [intOflow, Exc.arises, hs]

theorem intCheck_eq : intCheck r c =
    let c := { c with opselR := .misc, miscSel := .intLimit, arithDone := true }
    if outOfRange r then
      { c with setR := true, fpscr := setBit c.fpscr fpscrVxcvi true, invalid := true }
    else
      { c with
        setR := false
        fpscr := if r.fpscr.getLsbD fpscrFi then setBit c.fpscr fpscrXx true else c.fpscr } := rfl

theorem marked_intCheck (hc : c.fpscr = r.fpscr)
    (hs : r.state = .intCheck) : Marked r c (intCheck r c) := by
  rw [intCheck_eq]
  dsimp only
  cases ho : outOfRange r with
  | true =>
      refine ⟨fun x => ?_, fun k hk => ?_, ?_⟩
      · simp only [if_true, hc, Exc.isSet_mark (y := .invalid) (show fpscrVxcvi ∈ _ by decide)]
        cases x <;> simp [Exc.arises, hs, ho]
      · simp only [if_true, hc]
        exact control_setBit _ _ (by decide) hk
      · simp [Exc.arises, hs, ho]
  | false =>
      refine ⟨fun x => ?_, fun k hk => ?_, ?_⟩
      · simp only [Bool.false_eq_true, if_false, hc, isSet_inexact]
        cases x <;> simp [Exc.arises, hs, ho]
      · simp only [Bool.false_eq_true, if_false, hc]
        split_ifs
        · exact control_setBit _ _ (by decide) hk
        · rfl
      · simp [Exc.arises, hs, ho]

theorem marked_roundUflow (hc : c.fpscr = r.fpscr)
    (hs : r.state = .roundUflow) : Marked r c (roundUflow r c) := by
  cases hu : r.fpscr.getLsbD fpscrUe with
  | false =>
      refine ⟨fun x => ?_, fun k _ => ?_, ?_⟩
      · simp only [roundUflow, hu, Bool.not_false, if_true, hc]
        cases x <;> simp [Exc.arises, hs, hu]
      · simp only [roundUflow, hu, Bool.not_false, if_true, hc]
      · simp [roundUflow, hu, Exc.arises, hs]
  | true =>
      have hf : (roundUflow r c).fpscr = setBit r.fpscr fpscrUx true := by
        simp only [roundUflow, hu]
        split_ifs <;> simp_all
      refine ⟨fun x => ?_, fun k hk => ?_, ?_⟩
      · rw [hf, Exc.isSet_mark (y := .underflow) (by decide)]
        cases x <;> simp [Exc.arises, hs, hu]
      · rw [hf]
        exact control_setBit _ _ (by decide) hk
      · simp only [roundUflow, hu]
        split_ifs <;> simp_all [Exc.arises]

theorem marked_roundOflow (hc : c.fpscr = r.fpscr)
    (hs : r.state = .roundOflow) : Marked r c (roundOflow r c) := by
  cases ho : r.fpscr.getLsbD fpscrOe with
  | true =>
      have hf : (roundOflow r c).fpscr = setBit r.fpscr fpscrOx true := by
        simp [roundOflow, ho, hc]
      refine ⟨fun x => ?_, fun k hk => ?_, ?_⟩
      · rw [hf, Exc.isSet_mark (y := .overflow) (by decide)]
        cases x <;> simp [Exc.arises, hs, ho]
      · rw [hf]
        exact control_setBit _ _ (by decide) hk
      · simp [roundOflow, ho, Exc.arises, hs]
  | false =>
      have hf : (roundOflow r c).fpscr =
          setBit (if true then setBit (setBit r.fpscr fpscrOx true) fpscrXx true
            else setBit r.fpscr fpscrOx true) fpscrFi true := by
        simp [roundOflow, ho, hc]
      refine ⟨fun x => ?_, fun k hk => ?_, ?_⟩
      · rw [hf, Exc.isSet_setBit (by cases x <;> decide), isSet_inexact,
          Exc.isSet_mark (y := .overflow) (by decide)]
        cases x <;> simp [Exc.arises, hs, ho]
      · rw [hf, if_pos rfl, control_setBit _ _ (by decide) hk, control_setBit _ _ (by decide) hk]
        exact control_setBit _ _ (by decide) hk
      · simp [roundOflow, ho, Exc.arises, hs]

theorem marked_rounding (hc : c.fpscr = r.fpscr)
    (hs : r.state = .rounding) : Marked r c (rounding r c) := by
  have hf : ∃ round, (rounding r c).fpscr =
      if losesBits r && r.tiny then
        setBit (if losesBits r then setBit (setRound r.fpscr round) fpscrXx true
          else setRound r.fpscr round) fpscrUx true
      else if losesBits r then setBit (setRound r.fpscr round) fpscrXx true
      else setRound r.fpscr round := by
    refine ⟨fpRounding r.r r.x r.i.singlePrec r.i.roundMode r.resultSign, ?_⟩
    unfold rounding losesBits
    dsimp only
    rw [hc]
    split_ifs <;> simp_all
  obtain ⟨round, hf⟩ := hf
  refine ⟨fun x => ?_, fun k hk => ?_, ?_⟩
  · rw [hf]
    cases hl : losesBits r with
    | false =>
        simp only [Bool.false_and, Bool.false_eq_true, if_false, isSet_setRound]
        cases x <;> simp [Exc.arises, hs, hl]
    | true =>
        cases ht : r.tiny with
        | false =>
            simp only [Bool.and_false, Bool.false_eq_true, if_false, if_true]
            have := isSet_inexact x (setRound r.fpscr round) true
            rw [if_pos rfl, isSet_setRound] at this
            rw [this]
            cases x <;> simp [Exc.arises, hs, hl, ht]
        | true =>
            simp only [Bool.and_self, if_true]
            have := isSet_inexact x (setRound r.fpscr round) true
            rw [if_pos rfl, isSet_setRound] at this
            rw [Exc.isSet_mark (y := .underflow) (by decide), this]
            cases x <;> simp [Exc.arises, hs, hl, ht]
  · rw [hf]
    split_ifs <;>
      simp only [control_setBit _ _ (show 8 ≤ fpscrUx by decide) hk,
        control_setBit _ _ (show 8 ≤ fpscrXx by decide) hk, control_setRound _ _ hk]
  · unfold rounding
    dsimp only
    split_ifs <;> simp [Exc.arises, hs]

/-- A state marks the exceptions that it raises. -/
theorem states_marked (e : Execute1ToFPU) (done : Bool) (hc : c.fpscr = r.fpscr)
    (h : computes r.state = true) : Marked r c (states r e done c) := by
  cases hm : marks r.state with
  | false =>
      obtain ⟨hf, hi⟩ := states_unmarked e done c h hm
      refine ⟨fun x => ?_, fun k _ => ?_, ?_⟩
      · rw [hf, hc, arises_of_unmarked x hm, Bool.or_false]
      · rw [hf, hc]
      · rw [hi, arises_of_unmarked _ hm, Bool.or_false]
  | true =>
      cases hs : r.state <;> (try (rw [hs] at hm; cases hm; done)) <;> simp only [states, hs]
      · exact marked_intRound hc hs
      · exact marked_intFinal hc hs
      · exact marked_intCheck hc hs
      · exact marked_intOflow hc hs
      · exact marked_roundUflow hc hs
      · exact marked_roundOflow hc hs
      · exact marked_rounding hc hs

end

/-! ### What the operands do -/

/-- The bits that a special case sets are those of the exceptions that it names. -/
structure SpecialCase.Sane (e : SpecialCase) : Prop where
  invalid : Exc.invalid.isSet e.newFpscr = (e.invalid || e.qnanResult)
  zeroDivide : Exc.zeroDivide.isSet e.newFpscr = e.zeroDivide
  others : ∀ x : Exc, x ≠ .invalid → x ≠ .zeroDivide → x.isSet e.newFpscr = false
  control : ∀ k < 8, e.newFpscr.getLsbD k = false
  immed : e.zeroDivide = true → e.immedResult = true

namespace SpecialCase.Sane

variable {e e' : SpecialCase}

theorem same (h : e.Sane) (hf : e'.newFpscr = e.newFpscr)
    (hq : (e'.invalid || e'.qnanResult) = (e.invalid || e.qnanResult))
    (hz : e'.zeroDivide = e.zeroDivide) (hi : e.immedResult = true → e'.immedResult = true) :
    e'.Sane where
  invalid := by rw [hf, hq, h.invalid]
  zeroDivide := by rw [hf, hz, h.zeroDivide]
  others x h1 h2 := by rw [hf, h.others x h1 h2]
  control k hk := by rw [hf, h.control k hk]
  immed hd := hi (h.immed (hz ▸ hd))

/-- A case of an invalid operation. -/
theorem mark (h : e.Sane) {n : Nat} (hn : n ∈ Exc.invalid.bits)
    (hf : e'.newFpscr = setBit e.newFpscr n true) (hq : (e'.invalid || e'.qnanResult) = true)
    (hz : e'.zeroDivide = e.zeroDivide) (hi : e.immedResult = true → e'.immedResult = true) :
    e'.Sane where
  invalid := by rw [hf, Exc.isSet_mark hn, hq]; simp
  zeroDivide := by rw [hf, Exc.isSet_mark hn, hz, h.zeroDivide]; simp
  others x h1 h2 := by rw [hf, Exc.isSet_mark hn, h.others x h1 h2]; simpa using h1
  control k hk := by
    have hlow : ∀ m ∈ Exc.invalid.bits, 8 ≤ m := by decide
    rw [hf, control_setBit _ _ (hlow n hn) hk, h.control k hk]
  immed hd := hi (h.immed (hz ▸ hd))

end SpecialCase.Sane

section

variable {r : Reg} {e : SpecialCase}

/-- A special case without a division by zero. -/
def SpecialCase.NoDivide (r : Reg) (e : SpecialCase) : Prop :=
  e.Sane ∧ e.zeroDivide = false ∧ (invalidMul r = true → e.invalid = true)

theorem SpecialCase.NoDivide.ite {p : Prop} [Decidable p] {e e' : SpecialCase}
    (h : p → e.NoDivide r) (h' : ¬p → e'.NoDivide r) : (if p then e else e').NoDivide r := by
  split_ifs with hp
  · exact h hp
  · exact h' hp

theorem SpecialCase.NoDivide.same {e e' : SpecialCase} (h : e.NoDivide r)
    (hf : e'.newFpscr = e.newFpscr) (hn : e'.invalid = e.invalid)
    (hq : (e'.invalid || e'.qnanResult) = (e.invalid || e.qnanResult))
    (hz : e'.zeroDivide = e.zeroDivide) (hi : e.immedResult = true → e'.immedResult = true) :
    e'.NoDivide r :=
  ⟨h.1.same hf hq hz hi, hz.trans h.2.1, fun hm => hn.trans (h.2.2 hm)⟩

theorem SpecialCase.NoDivide.mark {e e' : SpecialCase} (h : e.NoDivide r) {n : Nat}
    (hn : n ∈ Exc.invalid.bits) (hf : e'.newFpscr = setBit e.newFpscr n true)
    (hq : e'.qnanResult = true) (hv : e'.invalid = e.invalid)
    (hz : e'.zeroDivide = e.zeroDivide) (hi : e.immedResult = true → e'.immedResult = true) :
    e'.NoDivide r :=
  ⟨h.1.mark hn hf (by simp [hq]) hz hi, hz.trans h.2.1, fun hm => hv.trans (h.2.2 hm)⟩

theorem noDivide_nanInfCase (h : e.NoDivide r) : (nanInfCase r e).NoDivide r := by
  unfold nanInfCase
  extract_lets e0 eSub eInf eInv eSqrt
  have h0 : e0.NoDivide r := h.same rfl rfl rfl rfl fun _ => rfl
  refine .ite (fun _ => h0.mark (n := fpscrVxcvi) (by decide) rfl rfl rfl rfl id) fun _ => ?_
  refine .ite (fun _ => h0.same rfl rfl rfl rfl id) fun _ => ?_
  have hSub : eSub.NoDivide r := .ite (fun _ => h0.same rfl rfl rfl rfl id) fun _ => h0
  have hInf : eInf.NoDivide r := by
    refine .ite (fun hm => ?_) fun _ => .ite (fun _ => ?_) fun _ => h0
    · refine h0.same rfl rfl ?_ rfl id
      simp [h0.2.2 hm]
    · exact .ite (fun _ => hSub.mark (n := fpscrVxisi) (by decide) rfl rfl rfl rfl id) fun _ => hSub
  have hInv : eInv.NoDivide r :=
    .ite (fun _ => hInf.mark (n := fpscrVxidi) (by decide) rfl rfl rfl rfl id) fun _ => hInf
  have hSqrt : eSqrt.NoDivide r :=
    .ite (fun _ => hInv.mark (n := fpscrVxsqrt) (by decide) rfl rfl rfl rfl id) fun _ => hInv
  exact hSqrt.same rfl rfl rfl rfl id

theorem noDivide_aZeroCase (h : e.NoDivide r) : (aZeroCase r e).NoDivide r := by
  unfold aZeroCase
  extract_lets e0 eA
  have h0 : e0.NoDivide r := h.same rfl rfl rfl rfl fun _ => rfl
  have hA : eA.NoDivide r :=
    .ite (fun _ => h0.same rfl rfl rfl rfl id) fun _ => h0.same rfl rfl rfl rfl id
  exact .ite (fun _ => hA.mark (n := fpscrVxzdz) (by decide) rfl rfl rfl rfl id) fun _ => hA

theorem sane_bZeroCase (h : e.NoDivide r) : (bZeroCase r e).Sane := by
  unfold bZeroCase
  extract_lets e0
  have h0 : e0.NoDivide r := h.same rfl rfl rfl rfl fun _ => rfl
  split_ifs with hinv hadd
  · have hmark := fun x =>
      Exc.isSet_mark (y := .zeroDivide) (n := fpscrZx) (by decide) x e0.newFpscr
    refine ⟨?_, ?_, fun x h1 h2 => ?_, fun k hk => ?_, fun _ => rfl⟩
    · simp only [hmark, h0.1.invalid]
      simp
    · simp [hmark]
    · simp only [hmark, h0.1.others x h1 h2]
      simpa using h2
    · exact (control_setBit _ _ (by decide) hk).trans (h0.1.control k hk)
  · exact h0.1.same rfl rfl rfl id
  · exact h0.1.same rfl rfl rfl id

/-- What the special cases say about the exceptions is what they set. -/
structure Speaks (sc : SpecialCase) : Prop where
  invalid : Exc.invalid.isSet sc.newFpscr = sc.invalid
  zeroDivide : Exc.zeroDivide.isSet sc.newFpscr = sc.zeroDivide
  others : ∀ x : Exc, x ≠ .invalid → x ≠ .zeroDivide → x.isSet sc.newFpscr = false
  control : ∀ k < 8, sc.newFpscr.getLsbD k = false
  immed : sc.zeroDivide = true → sc.immedResult = true

theorem scinfo_speaks (r : Reg) : Speaks (scinfo r) := by
  unfold scinfo
  extract_lets e0 eSnan eImz eCase eSqrt
  have h0 : e0.Sane :=
    ⟨Exc.isSet_zero, Exc.isSet_zero, fun _ _ _ => Exc.isSet_zero, fun k _ => BitVec.getLsbD_zero,
      fun h => Bool.noConfusion h⟩
  have hSnan : eSnan.Sane ∧ eSnan.zeroDivide = false := by
    unfold eSnan
    split_ifs
    · exact ⟨h0.mark (n := fpscrVxsnan) (by decide) rfl rfl rfl id, rfl⟩
    · exact ⟨h0, rfl⟩
  have hImz : eImz.NoDivide r := by
    unfold eImz
    split_ifs with hm
    · exact ⟨hSnan.1.mark (n := fpscrVximz) (by decide) rfl rfl rfl id, hSnan.2, fun _ => rfl⟩
    · exact ⟨hSnan.1, hSnan.2, fun h => absurd h hm⟩
  have hCase : eCase.Sane := by
    unfold eCase
    split_ifs
    · exact (noDivide_nanInfCase hImz).1
    · exact (noDivide_aZeroCase hImz).1
    · exact hImz.1.same rfl rfl rfl fun _ => rfl
    · exact sane_bZeroCase hImz
    · exact hImz.1
  have hSqrt : eSqrt.Sane := by
    unfold eSqrt
    split_ifs
    · exact hCase.mark (n := fpscrVxsqrt) (by decide) rfl (by simp) rfl fun _ => rfl
    · exact hCase
  split_ifs with hq
  · refine ⟨?_, hSqrt.zeroDivide, hSqrt.others, hSqrt.control, hSqrt.immed⟩
    rw [hSqrt.invalid, hq, Bool.or_true]
  · refine ⟨?_, hSqrt.zeroDivide, hSqrt.others, hSqrt.control, hSqrt.immed⟩
    rw [hSqrt.invalid, Bool.eq_false_iff.mpr hq, Bool.or_false]

end

/-- What the special cases assign over the state. -/
structure Overrides (r : Reg) (c c' : Ctl) : Prop where
  state : c'.state = c.state
  instrDone : c'.instrDone = c.instrDone
  writingFpr : c'.writingFpr = c.writingFpr
  illegal : c'.illegal = c.illegal
  illegalReg : c'.illegalReg = c.illegalReg
  setFpcc : c'.setFpcc = c.setFpcc
  invalidReg : c'.invalidReg = c.invalidReg
  fpscr : c'.fpscr = r.fpscr ||| (scinfo r).newFpscr
  invalid : c'.invalid = (scinfo r).invalid
  zeroDivide : c'.zeroDivide = (scinfo r).zeroDivide
  arithDone : (scinfo r).immedResult = true → c'.arithDone = true

theorem specialCases_overrides {r : Reg} {c : Ctl} (h : r.cycle1Ar = true) :
    Overrides r c (specialCases r c) := by
  unfold specialCases
  rw [if_pos h]
  extract_lets sc c1
  by_cases him : sc.immedResult = true
  · rw [if_pos him]
    exact ⟨rfl, rfl, rfl, rfl, rfl, rfl, rfl, rfl, rfl, rfl, fun _ => rfl⟩
  · rw [if_neg him]
    exact ⟨rfl, rfl, rfl, rfl, rfl, rfl, rfl, rfl, rfl, rfl, fun hi => absurd hi him⟩

/-! ## A cycle -/

/-- An arithmetic instruction is in progress. -/
structure Computing (r : Reg) : Prop where
  state : computes r.state = true
  execState : computes r.execState = true
  busy : r.busy = true
  /-- Nothing is left of the instruction before. -/
  taken : r.instrDone = true → outputsSeen r = true
  written : r.writingFpr = true → outputsSeen r = true
  legal : r.illegal = true → outputsSeen r = true

/-- The control of a cycle in which an arithmetic instruction is in progress. -/
structure Computed (r : Reg) (c : Ctl) : Prop where
  state : computes c.state = true
  instrDone : c.instrDone = false
  writingFpr : c.writingFpr = false
  illegal : c.illegal = false
  illegalReg : c.illegalReg = false
  setFpcc : c.setFpcc = false
  isSet : ∀ x : Exc, x.isSet c.fpscr = (x.isSet r.fpscr || x.raised r)
  control : ∀ k < 8, c.fpscr.getLsbD k = r.fpscr.getLsbD k
  invalid : nextInvalid c = (r.invalid || Exc.invalid.raised r)
  zeroDivide : c.zeroDivide = Exc.zeroDivide.raised r
  /-- A division by zero has its result at once. -/
  divides : c.zeroDivide = true → c.arithDone = true

section

variable {r : Reg} {e : Execute1ToFPU}

theorem Computing.seen_of {b : Bool} (h : b = true → outputsSeen r = true) :
    (b && !outputsSeen r) = false := by
  cases b with
  | false => rfl
  | true => rw [h rfl]; rfl

theorem Computing.computed (h : Computing r) (done : Bool) : Computed r (ctl r e done) := by
  have hkeep : Keeps (base r e) (states r e done (base r e)) := states_keeps rfl h.state h.execState
  have hdone : (base r e).instrDone = false := Computing.seen_of h.taken
  have hwrite : (base r e).writingFpr = false := Computing.seen_of h.written
  have hill : (base r e).illegalReg = false := Computing.seen_of h.legal
  cases hcyc : r.cycle1Ar with
  | false =>
      rw [ctl_of_not_cycle1Ar hcyc]
      have hbase : (base r e).fpscr = r.fpscr := by simp [base, hcyc]
      have hmark := states_marked e done hbase h.state
      refine ⟨hkeep.state, ?_, ?_, ?_, ?_, ?_, fun x => ?_, hmark.control, ?_, ?_, ?_⟩
      · rw [hkeep.instrDone, hdone]
      · rw [hkeep.writingFpr, hwrite]
      · rw [hkeep.illegal]; rfl
      · rw [hkeep.illegalReg, hill]
      · rw [hkeep.setFpcc]; rfl
      · simp only [hmark.isSet, Exc.raised, hcyc, Bool.false_eq_true, if_false]
      · unfold nextInvalid
        rw [hkeep.invalidReg, hmark.invalid]
        simp [base, Exc.raised, hcyc]
      · rw [hkeep.zeroDivide]
        simp [base, Exc.raised, hcyc, Exc.arises]
      · rw [hkeep.zeroDivide]
        intro hz
        cases hz
  | true =>
      have hsc := scinfo_speaks r
      have hraised : ∀ x : Exc, x.isSet (scinfo r).newFpscr = x.raised r := by
        intro x
        unfold Exc.raised
        rw [if_pos hcyc]
        cases x with
        | invalid => exact hsc.invalid
        | zeroDivide => exact hsc.zeroDivide
        | _ => exact hsc.others _ (by decide) (by decide)
      have ho := specialCases_overrides (c := states r e done (base r e)) hcyc
      refine ⟨?_, ?_, ?_, ?_, ?_, ?_, fun x => ?_, fun k hk => ?_, ?_, ?_, ?_⟩
      · rw [ctl, ho.state, hkeep.state]
      · rw [ctl, ho.instrDone, hkeep.instrDone, hdone]
      · rw [ctl, ho.writingFpr, hkeep.writingFpr, hwrite]
      · rw [ctl, ho.illegal, hkeep.illegal]; rfl
      · rw [ctl, ho.illegalReg, hkeep.illegalReg, hill]
      · rw [ctl, ho.setFpcc, hkeep.setFpcc]; rfl
      · rw [ctl, ho.fpscr, Exc.isSet_or, hraised]
      · rw [ctl, ho.fpscr, BitVec.getLsbD_or, hsc.control k hk, Bool.or_false]
      · unfold nextInvalid
        rw [ctl, ho.invalidReg, ho.invalid, hkeep.invalidReg, ← hsc.invalid, hraised]
        rfl
      · rw [ctl, ho.zeroDivide, ← hsc.zeroDivide, hraised]
      · rw [ctl, ho.zeroDivide]
        exact fun hz => ho.arithDone (hsc.immed hz)

end

/-! ## The FPSCR -/

section

variable {r : Reg} {c : Ctl}

/-- The bits that the end of a cycle does not change. -/
theorem getLsbD_nextFpscr (hc : c.setFpcc = false) {k : Nat} (hk : k < fpscrVx)
    (hprf : ¬(fpscrFu ≤ k ∧ k < fpscrFu + 5)) (hfr : k ≠ fpscrFr) :
    (nextFpscr r c).getLsbD k = c.fpscr.getLsbD k := by
  have hw : k < 32 := hk.trans (by decide)
  have hcls : (classFpscr r c).getLsbD k = c.fpscr.getLsbD k := by
    unfold classFpscr
    split_ifs
    · rw [getLsbD_setBit _ _ _ _ hw, if_neg hfr]
    · rfl
  unfold nextFpscr
  rw [hc]
  dsimp only
  rw [getLsbD_summarize _ _ _ hk, if_neg Bool.false_ne_true]
  split_ifs
  · rw [getLsbD_setBits _ _ _ _ hw, if_neg hprf, hcls]
  · exact hcls

theorem isSet_nextFpscr (hc : c.setFpcc = false) (x : Exc) :
    x.isSet (nextFpscr r c) = x.isSet c.fpscr := by
  refine Exc.isSet_congr fun k hk => getLsbD_nextFpscr hc ?_ ?_ ?_
  · revert k
    cases x <;> decide
  · revert k
    cases x <;> decide
  · revert k
    cases x <;> decide

theorem control_nextFpscr (hc : c.setFpcc = false) {k : Nat} (hk : k < 8) :
    (nextFpscr r c).getLsbD k = c.fpscr.getLsbD k := by
  refine getLsbD_nextFpscr hc ?_ ?_ ?_
  · unfold fpscrVx; omega
  · unfold fpscrFu; omega
  · unfold fpscrFr; omega

theorem bne_zero_iff {n : Nat} (w : BitVec n) : (w != 0) = true ↔ ∃ k < n, w.getLsbD k = true := by
  rw [bne_iff_ne]
  constructor
  · intro hne
    by_contra hno
    push Not at hno
    exact hne (BitVec.eq_of_getLsbD_eq fun k hk => by simpa using hno k hk)
  · rintro ⟨k, -, hk⟩ rfl
    simp at hk

/-- The place of an exception in VX to XX and in VE to XE. -/
def Exc.place (x : Exc) : Nat :=
  match x with
  | .invalid => 4
  | .overflow => 3
  | .underflow => 2
  | .zeroDivide => 1
  | .inexact => 0

/-- VX sums up the invalid operations. -/
theorem invalid_isSet (f : BitVec 32) :
    (f.extractLsb' fpscrVxvc 6 != 0 || f.extractLsb' fpscrVxcvi 3 != 0) = Exc.invalid.isSet f := by
  rw [Bool.eq_iff_iff, Bool.or_eq_true, bne_zero_iff, bne_zero_iff]
  simp only [BitVec.getLsbD_extractLsb', Exc.isSet, Exc.bits, List.any_eq_true]
  constructor
  · rintro (⟨k, hk, h⟩ | ⟨k, hk, h⟩)
    · refine ⟨fpscrVxvc + k, ?_, by simpa [hk] using h⟩
      interval_cases k <;> decide
    · refine ⟨fpscrVxcvi + k, ?_, by simpa [hk] using h⟩
      interval_cases k <;> decide
  · rintro ⟨k, hk, h⟩
    have hcase : (∃ j < 6, k = fpscrVxvc + j) ∨ ∃ j < 3, k = fpscrVxcvi + j := by
      clear h
      revert k
      decide
    rcases hcase with ⟨j, hj, rfl⟩ | ⟨j, hj, rfl⟩
    · exact Or.inl ⟨j, hj, by simpa [hj] using h⟩
    · exact Or.inr ⟨j, hj, by simpa [hj] using h⟩

/-- FEX is set if an enabled exception is. -/
theorem fex_iff (fx : Bool) (oldExc : BitVec 5) (f : BitVec 32) :
    (summarize fx oldExc f).getLsbD fpscrFex = true ↔
      ∃ x : Exc, x.enabled f = true ∧ x.isSet f = true := by
  have hfex : (summarize fx oldExc f).getLsbD fpscrFex =
      ((setBit f fpscrVx (Exc.invalid.isSet f)).extractLsb' fpscrXx 5 &&&
        (setBit f fpscrVx (Exc.invalid.isSet f)).extractLsb' fpscrXe 5 != 0) := by
    unfold summarize
    rw [invalid_isSet]
    dsimp only
    split_ifs
    · rw [getLsbD_setBit _ _ _ _ (by decide), if_neg (by decide),
        getLsbD_setBit _ _ _ _ (by decide), if_pos rfl]
    · rw [getLsbD_setBit _ _ _ _ (by decide), if_pos rfl]
  have hx : ∀ x : Exc, x.place < 5 ∧
      (setBit f fpscrVx (Exc.invalid.isSet f)).getLsbD (fpscrXx + x.place) = x.isSet f ∧
      (setBit f fpscrVx (Exc.invalid.isSet f)).getLsbD (fpscrXe + x.place) = x.enabled f := by
    intro x
    cases x <;> refine ⟨by decide, ?_, ?_⟩ <;> rw [getLsbD_setBit _ _ _ _ (by decide)] <;>
      simp [Exc.place, Exc.isSet, Exc.bits, Exc.enabled, fpscrXx, fpscrXe, fpscrVx,
        fpscrVe, fpscrOe, fpscrUe, fpscrZe, fpscrOx, fpscrUx, fpscrZx]
  rw [hfex, bne_zero_iff]
  constructor
  · rintro ⟨k, hk, h⟩
    obtain ⟨x, rfl⟩ : ∃ x : Exc, x.place = k := by
      interval_cases k
      exacts [⟨.inexact, rfl⟩, ⟨.zeroDivide, rfl⟩, ⟨.underflow, rfl⟩, ⟨.overflow, rfl⟩,
        ⟨.invalid, rfl⟩]
    obtain ⟨hlt, hset, hen⟩ := hx x
    rw [BitVec.getLsbD_and, BitVec.getLsbD_extractLsb', BitVec.getLsbD_extractLsb', hset, hen] at h
    simp only [hlt, decide_true, Bool.true_and, Bool.and_eq_true] at h
    exact ⟨x, h.2, h.1⟩
  · rintro ⟨x, hen', hset'⟩
    obtain ⟨hlt, hset, hen⟩ := hx x
    refine ⟨x.place, hlt, ?_⟩
    rw [BitVec.getLsbD_and, BitVec.getLsbD_extractLsb', BitVec.getLsbD_extractLsb', hset,
      hen, hset', hen']
    simp [hlt]

end

end Microwatt.Fpu
