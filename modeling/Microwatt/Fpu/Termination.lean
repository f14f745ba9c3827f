import Microwatt.Fpu.Bookkeeping
import Microwatt.Fpu.Shifter

/-!
# Every floating-point instruction ends

A rank of three numbers, which every cycle of an instruction lowers.  The first goes down from the
operands to the rounding, with the denormalised operands that are left and the iterations that are
left in it.  The second is for two loops: an enabled underflow adds the bias to the exponent, until
it is no longer tiny, and an enabled overflow leads back to a rounding with half the mantissa.  The
third is how long the multiplier takes to its next product.  Integer divisions are left out.
-/

namespace Microwatt.Fpu

/-! ## The rank -/

/-- The states of floating-point instructions that do not compute. -/
def brief : State → Bool
  | .doMcrfs | .doMtfsb | .doMtfsfi | .doMffs | .doMtfsf | .doFmr | .doFmrg | .doFcmp | .cmp1
  | .cmp2
  | .doFtdiv | .ftdiv1 | .doFtsqrt | .doFsel | .doIllegal => true
  | _ => false

theorem eq_of_brief {s : State} (h : brief s = true) : s = .doFcmp ∨ s = .cmp1 ∨ s = .doFtdiv ∨
    s = .ftdiv1 ∨ s = .doMffs ∨ s = .doMcrfs ∨ s = .doMtfsb ∨ s = .doMtfsfi ∨ s = .doMtfsf ∨
      s = .doFmr ∨
    s = .doFmrg ∨ s = .doFtsqrt ∨ s = .doFsel ∨ s = .doIllegal ∨ s = .cmp2 := by
  cases s <;> first | exact Bool.noConfusion h | decide

/-- How many times `DIV_2` and `DIV_3` are taken again. -/
def divLeft (count : BitVec 2) : Nat := 3 - count.toNat

/-- How many times `SQRT_4` to `SQRT_7` are taken again. -/
def sqrtLeft (count : BitVec 2) : Nat := 2 - count.toNat

/-- How far a state is from the rounding. -/
def depth (s : State) (count : BitVec 2) : Nat :=
  match s with
  | .roundUflow | .normalize | .intFinal | .cmp1 | .ftdiv1 => 1
  | .finish | .rsqrt1 | .fre1 | .fri1 | .doFrsp2 | .intRound | .intIshift | .doFcmp | .doFtdiv => 2
  | .div6 | .fmadd6 | .add3 | .mult1 | .sqrt12 | .doFre | .doFri | .doFrsp | .intShift
  | .doFcfid => 3
  | .div5 | .fmadd5 | .add2 | .add2b | .doFmul | .sqrt11 | .doFcti => 4
  | .div4 | .fmadd4 | .addShift | .sqrt10 => 5
  | .fmadd3 | .add1 | .fmadd0 | .sqrt9 => 6
  | .fmadd2 | .doFadd | .sqrt8 => 7
  | .fmadd1 => 8
  | .doFmadd => 9
  | .div3 => 6 + 2 * divLeft count
  | .div2 => 7 + 2 * (if count = 3 then 3 else 2 - count.toNat)
  | .doFdiv => 14
  | .sqrt7 => 8 + 4 * sqrtLeft count
  | .sqrt6 => 9 + 4 * sqrtLeft count
  | .sqrt5 => 10 + 4 * sqrtLeft count
  | .sqrt4 => 11 + 4 * sqrtLeft count
  | .sqrt3 => 20
  | .sqrt2 => 21
  | .sqrt1 => 22
  | _ => 0

/-- The exponent that B has after `RENORM_2`. -/
def renormedExp (r : Reg) : Int := if r.regsel = .b then newExp r else r.b.exponent

/-- The first number: with denormalised operands, and with an odd exponent under a square root,
there is more to do than in `depth`. -/
def outer (r : Reg) : Nat :=
  let b := r.b.denorm.toNat
  let c := r.c.denorm.toNat
  match r.state with
  | .doSpecial => 139 + 40 * (b + c)
  | .renormA => 138 + 40 * (b + c)
  | .renormB => 138 + 40 * c
  | .renormC => 138 + 40 * b
  | .renorm1 => 136 + 40 * (b + c)
  | .renorm2 => (if renormedExp r % 2 = 1 then 130 else 110) + 40 * (b + c)
  | .doFsqrt => (if r.b.exponent % 2 = 1 then 120 else 105) + 40 * (b + c)
  | .sqrtOdd => 115 + 40 * (b + c)
  | s => depth s r.count

/-- The mantissa has an overflow that the rounding led to. -/
def carries (r : Reg) : Bool := r.r.getLsbD (unitBit + 1)

/-- The second number. -/
def middle (r : Reg) : Nat :=
  match r.state with
  | .normalize => if newExp r < 0 then 2 * (-newExp r).toNat + 3 else 1
  | .roundUflow => 2 * (-r.resultExp).toNat + 2
  | .rounding | .roundInc | .roundOflow => r.r.toNat
  | .rounding2 => if carries r then r.r.toNat / 2 else 0
  | _ => 0

/-- How long the multiplier takes to its next product. -/
def productIn (u : Multiply) : Nat :=
  if u.stage1.valid then 0 else if u.stage0.valid then 1 else if u.m.valid then 2 else 3

/-- The third number. -/
def inner (r : Reg) (u : Multiply) : Nat :=
  match r.state with
  | .denorm => 0
  | .rounding3 => 1
  | .rounding2 => if carries r then 6 else 2
  | .roundInc => 3
  | .rounding => 4
  | .roundOflow => 5
  | .ftdiv1 => r.first.toNat
  | _ => productIn u

def rank (r : Reg) (u : Multiply) : Nat ×ₗ Nat ×ₗ Nat :=
  toLex (outer r, toLex (middle r, inner r u))

/-! ## Products that are due -/

/-- The states that start a multiplication in their first cycle. -/
def sends : State → Bool
  | .mult1 | .fmadd4 | .div2 | .div3 | .div4 | .div5 | .sqrt4 | .sqrt6 | .sqrt8 | .sqrt9
  | .sqrt11 => true
  | _ => false

/-- The states that wait for a product. -/
def waits : State → Bool
  | .fmadd0 | .sqrt3 | .sqrt7 => true
  | s => sends s

/-- How many products a state relies on. -/
def owed (s : State) : Nat :=
  if s = .sqrt6 then 2 else if waits s then 1 else 0

/-- The multiplications that are under way, with the one that the state starts. -/
def underWay (s : State) (first : Bool) (u : Multiply) : Nat :=
  (sends s && first).toNat + u.m.valid.toNat + u.stage0.valid.toNat + u.stage1.valid.toNat

/-- What an instruction in progress relies on. -/
structure Fueled (r : Reg) (u : Multiply) : Prop where
  owed : owed r.state ≤ underWay r.state r.first u
  sqrt2 : r.state = .sqrt2 → u.m.valid = true
  sqrtOdd : r.state = .sqrtOdd → r.resultExp % 2 = 1
  rounding2 : r.state = .rounding2 → r.shift = -1

/-! ## The states one by one -/

/-- The states in which a cycle goes one step down. -/
def plain : State → Bool
  | .finish | .rsqrt1 | .fre1 | .fri1 | .doFrsp2 | .intRound | .intIshift | .intFinal | .intCheck
  | .intOflow
  | .div6 | .fmadd6 | .add3 | .sqrt12 | .doFre | .doFri | .doFrsp | .intShift | .doFcfid | .fmadd5
  | .add2
  | .add2b | .doFmul | .doFcti | .addShift | .sqrt10 | .fmadd3 | .add1 | .fmadd2 | .doFadd | .fmadd1
  | .doFmadd | .doFdiv | .sqrt1 | .sqrt2 | .sqrt5 => true
  | _ => false

/-- The states whose first number is their depth. -/
def flat : State → Bool
  | .doSpecial | .renormA | .renormB | .renormC | .renorm1 | .renorm2 | .doFsqrt | .sqrtOdd => false
  | _ => true

/-- A step down from a state, with the products that the next state relies on. -/
structure Falls (s : State) (count : BitVec 2) (c : Ctl) : Prop where
  depth : depth c.state c.count < depth s count
  flat : flat c.state = true
  owed : owed c.state ≤
    (sends c.state && c.first).toNat + c.multiplyValid.toNat + (decide (s = .sqrt2)).toNat
  sqrt2 : c.state = .sqrt2 → c.multiplyValid = true
  rounding2 : c.state ≠ .rounding2

/-- A state that waits for a product. -/
structure Stays (s : State) (r : Reg) (c : Ctl) : Prop where
  state : c.state = s
  count : c.count = r.count
  first : c.first = false
  multiplyValid : c.multiplyValid = (sends s && r.first)

/-- The next state after a product. -/
structure Leaves (s : State) (r : Reg) (c : Ctl) : Prop where
  depth : depth c.state c.count < depth s r.count
  flat : flat c.state = true
  owed : owed c.state ≤ (sends c.state && c.first).toNat + (decide (s = .sqrt6)).toNat
  multiplyValid : c.multiplyValid = (sends s && r.first)
  sqrt2 : c.state ≠ .sqrt2
  rounding2 : c.state ≠ .rounding2

section States

variable {r : Reg} {e : Execute1ToFPU} {done : Bool} {c : Ctl} {s : State} {count : BitVec 2}

/-- The instruction ends, or goes a step down. -/
def Goes (s : State) (count : BitVec 2) (c : Ctl) : Prop := c.arithDone = true ∨ Falls s count c

theorem Goes.ite {p : Prop} [Decidable p] {c₁ c₂ : Ctl} (h₁ : Goes s count c₁)
    (h₂ : Goes s count c₂) :
    Goes s count (if p then c₁ else c₂) := by
  split_ifs
  · exact h₁
  · exact h₂

theorem plain_falls (hc : c.count = r.count) (hp : plain r.state = true)
    (hopen : (states r e done c).arithDone = false) :
    Falls r.state r.count (states r e done c) := by
  have hall : ∀ s, plain s = true → Goes s r.count (branch s r e done c) := by
    intro s hp
    cases s <;> (try exact Bool.noConfusion hp)
    case intCheck =>
      change Goes _ _ (intCheck _ c)
      rw [intCheck_eq]
      exact Goes.ite (Or.inl rfl) (Or.inl rfl)
    case sqrt5 =>
      refine Or.inr ⟨?_, rfl, of_decide_eq_true rfl, State.noConfusion, State.noConfusion⟩
      change 9 + 4 * sqrtLeft c.count < 10 + 4 * sqrtLeft r.count
      rw [hc]
      omega
    case doFdiv =>
      have hfirst : depth .div2 0 < 14 := by decide
      exact Or.inr ⟨hfirst, rfl, Nat.le_add_right 1 _, State.noConfusion, State.noConfusion⟩
    case addShift =>
      change Goes .addShift r.count (addShift _ c)
      unfold addShift
      split_ifs <;>
        exact Or.inr ⟨of_decide_eq_true rfl, rfl, of_decide_eq_true rfl, State.noConfusion,
          State.noConfusion⟩
    case intRound =>
      change Goes .intRound r.count (intRound _ c)
      unfold intRound
      extract_lets round
      split_ifs <;>
        exact Or.inr ⟨of_decide_eq_true rfl, rfl, of_decide_eq_true rfl, State.noConfusion,
          State.noConfusion⟩
    case doFrsp2 =>
      change Goes .doFrsp2 r.count (doFrsp2 _ c)
      unfold doFrsp2
      split_ifs <;>
        exact Or.inr ⟨of_decide_eq_true rfl, rfl, of_decide_eq_true rfl, State.noConfusion,
          State.noConfusion⟩
    all_goals
      repeat'
        first
        | exact Or.inl rfl
        | exact Or.inr ⟨of_decide_eq_true rfl, rfl, of_decide_eq_true rfl, State.noConfusion,
          State.noConfusion⟩
        | refine Goes.ite ?_ ?_
        | exact Or.inr ⟨of_decide_eq_true rfl, rfl, of_decide_eq_true rfl, fun _ => rfl,
          State.noConfusion⟩
        | exact Or.inr ⟨of_decide_eq_true rfl, rfl, Nat.le_add_right 1 _, State.noConfusion,
          State.noConfusion⟩
    all_goals
      split_ifs <;>
        exact Or.inr ⟨of_decide_eq_true rfl, rfl, of_decide_eq_true rfl, State.noConfusion,
          State.noConfusion⟩
  exact (hall _ hp).resolve_left fun h => absurd (hopen.symm.trans h) Bool.false_ne_true

/-- Without a product nothing moves. -/
theorem waits_stays (hs : c.state = r.state) (hc : c.count = r.count) (hf : c.first = false)
    (hm : c.multiplyValid = false) (hw : waits r.state = true) :
    Stays r.state r (states r e false c) := by
  have hall : ∀ s, r.state = s → waits s = true → Stays s r (branch s r e false c) := by
    intro s hst hw
    rw [hst] at hs
    cases s <;> (try exact Bool.noConfusion hw) <;>
      first
      | exact ⟨hs, hc, hf, rfl⟩
      | exact ⟨hs, hc, hf, hm⟩
  exact hall _ rfl hw

theorem waits_leaves (hc : c.count = r.count) (hm : c.multiplyValid = false)
    (hw : waits r.state = true) : Leaves r.state r (states r e true c) := by
  -- the iterations are counted from whatever the count is
  have hdiv2 : depth .div3 (r.count + 1) < depth .div2 r.count := by
    rcases eq_of_two_bits r.count with h | h | h | h <;> rw [h] <;> decide
  have hdiv3 : ¬(r.count == 3) = true → depth .div2 r.count < depth .div3 r.count := by
    rcases eq_of_two_bits r.count with h | h | h | h <;> rw [h] <;> decide
  have hdiv4 : depth .div4 c.count < depth .div3 r.count := by
    change 5 < 6 + 2 * divLeft r.count
    omega
  have hsqrt3 : depth .sqrt4 c.count < depth .sqrt3 r.count := by
    change 11 + 4 * (2 - c.count.toNat) < 20
    omega
  have hsqrt7 : r.count < 2 → depth .sqrt4 (r.count + 1) < depth .sqrt7 r.count := by
    rcases eq_of_two_bits r.count with h | h | h | h <;> rw [h] <;> decide
  have hsqrt8 : depth .sqrt8 c.count < depth .sqrt7 r.count := by
    change 7 < 8 + 4 * sqrtLeft r.count
    omega
  have hall : ∀ s, waits s = true → Leaves s r (branch s r e true c) := by
    intro s hw
    cases s <;> (try exact Bool.noConfusion hw)
    case div2 => exact ⟨hdiv2, rfl, of_decide_eq_true rfl, rfl, State.noConfusion,
      State.noConfusion⟩
    case div3 =>
      change Leaves .div3 r (div3 _ c true)
      unfold div3
      rw [if_pos rfl]
      split_ifs with hlast
      · exact ⟨hdiv4, rfl, of_decide_eq_true rfl, rfl, State.noConfusion, State.noConfusion⟩
      · refine ⟨?_, rfl, of_decide_eq_true rfl, rfl, State.noConfusion, State.noConfusion⟩
        change depth .div2 c.count < _
        rw [hc]
        exact hdiv3 hlast
    case sqrt3 => exact ⟨hsqrt3, rfl, of_decide_eq_true rfl, hm, State.noConfusion,
      State.noConfusion⟩
    case sqrt4 =>
      refine ⟨?_, rfl, of_decide_eq_true rfl, rfl, State.noConfusion, State.noConfusion⟩
      change 10 + 4 * sqrtLeft c.count < 11 + 4 * sqrtLeft r.count
      rw [hc]
      omega
    case sqrt6 =>
      refine ⟨?_, rfl, of_decide_eq_true rfl, rfl, State.noConfusion, State.noConfusion⟩
      change 8 + 4 * sqrtLeft c.count < 9 + 4 * sqrtLeft r.count
      rw [hc]
      omega
    case sqrt7 =>
      change Leaves .sqrt7 r (sqrt7 _ c true)
      unfold sqrt7
      rw [if_pos rfl]
      split_ifs with hmore
      · exact ⟨hsqrt7 hmore, rfl, of_decide_eq_true rfl, hm, State.noConfusion, State.noConfusion⟩
      · exact ⟨hsqrt8, rfl, of_decide_eq_true rfl, hm, State.noConfusion, State.noConfusion⟩
    all_goals
      first
      | exact ⟨of_decide_eq_true rfl, rfl, of_decide_eq_true rfl, rfl, State.noConfusion,
        State.noConfusion⟩
      | exact ⟨of_decide_eq_true rfl, rfl, of_decide_eq_true rfl, hm, State.noConfusion,
        State.noConfusion⟩
  exact hall _ hw

end States

/-! ## A cycle -/

section Cycle

variable {r : Reg} {u : Multiply} {i : Execute1ToFPU} {t : BitVec 19}

/-- What the special cases assign to an instruction that goes on. -/
def Ctl.withSpecial (c : Ctl) (fpscr : BitVec 32) (invalid zeroDivide qnanResult : Bool) : Ctl :=
  { c with fpscr := fpscr, invalid := invalid, zeroDivide := zeroDivide, qnanResult := qnanResult }

/-- While an instruction goes on, the special cases change nothing but the FPSCR and what goes with
it. -/
theorem ctl_of_open {done : Bool} (h : nextInstrDone r (ctl r i done) = false) : ∃ f inv zd qnan,
    ctl r i done = (states r i done (base r i)).withSpecial f inv zd qnan := by
  cases hcyc : r.cycle1Ar with
  | false =>
      rw [ctl_of_not_cycle1Ar hcyc]
      let c := states r i done (base r i)
      exact ⟨c.fpscr, c.invalid, c.zeroDivide, c.qnanResult, rfl⟩
  | true =>
      have him : (scinfo r).immedResult = false := by
        by_contra him
        have hdone : (ctl r i done).arithDone = true :=
          (specialCases_overrides hcyc).arithDone (by simpa using him)
        simp [nextInstrDone, arithDone, hdone] at h
      let sc := scinfo r
      refine ⟨r.fpscr ||| sc.newFpscr, sc.invalid, sc.zeroDivide, sc.qnanResult, ?_⟩
      unfold ctl specialCases
      rw [if_pos hcyc]
      dsimp only
      rw [him, if_neg Bool.false_ne_true]
      rfl

/-- The registers and the multiplier after a cycle. -/
structure After (r : Reg) (u : Multiply) (c : Ctl) (r' : Reg) (u' : Multiply) : Prop where
  state : r'.state = c.state
  count : r'.count = c.count
  first : r'.first = c.first
  regsel : r'.regsel = c.regsel
  bDenorm : r'.b.denorm = c.bDenorm
  cDenorm : r'.c.denorm = c.cDenorm
  execState : r'.execState = r.execState
  bExponent : r'.b.exponent = if setOperand r c .b c.setB then newExp r else r.b.exponent
  resultExp : r'.resultExp = if c.reSetResult then rexpSum r c else r.resultExp
  shift : r'.shift = nextShift r c
  kept : c.setR = false → r'.r = r.r
  summed : c.setR = true → c.opselR = .sum → r'.r = sum r c
  shifted : c.setR = true → c.opselR = .shift → r'.r = upperShifted (shifterInput r) r.shift
  m : u'.m.valid = c.multiplyValid
  stage0 : u'.stage0.valid = u.m.valid
  stage1 : u'.stage1.valid = u.stage0.valid

theorem after_of_open (hv : i.valid = false)
    (h : nextInstrDone r (ctl r i u.stage1.valid) = false) :
    After r u (states r i u.stage1.valid (base r i)) (rin r i t u.out)
      (u.step (toMultiply r (ctl r i u.stage1.valid) t)) := by
  have hends : ends r (ctl r i u.stage1.valid) = false := by simp [ends, h]
  have hout : u.out.valid = u.stage1.valid := rfl
  have hshift := shiftRes_eq r i u.stage1.valid
  obtain ⟨f, inv, zd, qnan, hctl⟩ := ctl_of_open h
  rw [hctl] at hends hshift
  unfold rin
  rw [hout, hctl]
  clear hctl hout
  generalize states r i u.stage1.valid (base r i) = c at hends hshift ⊢
  constructor
  case state =>
    simp only [rinOf, hends, Bool.false_eq_true, if_false]
    rfl
  case execState => simp [rinOf, accepts, hv]
  case bExponent =>
    simp only [rinOf, nextOperand, hv, Bool.false_eq_true, if_false]
    rfl
  case kept =>
    intro hr
    exact if_neg (show ¬(c.withSpecial f inv zd qnan).setR = true by simp [Ctl.withSpecial, hr])
  case summed =>
    intro hr hs
    have hres : result r (c.withSpecial f inv zd qnan) t u.out = sum r c := by
      unfold result
      rw [show (c.withSpecial f inv zd qnan).opselR = .sum from hs]
      rfl
    exact (if_pos (show (c.withSpecial f inv zd qnan).setR = true from hr)).trans hres
  case shifted =>
    intro hr hs
    have hres : result r (c.withSpecial f inv zd qnan) t u.out =
        upperShifted (shifterInput r) r.shift := by
      unfold result
      rw [show (c.withSpecial f inv zd qnan).opselR = .shift from hs]
      exact hshift
    exact (if_pos (show (c.withSpecial f inv zd qnan).setR = true from hr)).trans hres
  all_goals rfl

end Cycle

/-! ## The rank goes down -/

/-- A cycle lowers the rank, and the instruction still has what it relies on. -/
def Lowers (r : Reg) (u : Multiply) (r' : Reg) (u' : Multiply) : Prop :=
  rank r' u' < rank r u ∧ Fueled r' u'

theorem rank_lt_iff {r r' : Reg} {u u' : Multiply} : rank r' u' < rank r u ↔
    outer r' < outer r ∨ outer r' = outer r ∧
      (middle r' < middle r ∨ middle r' = middle r ∧ inner r' u' < inner r u) := by
  unfold rank
  rw [Prod.Lex.toLex_lt_toLex, Prod.Lex.toLex_lt_toLex]

theorem outer_of_flat {r : Reg} (h : flat r.state = true) : outer r = depth r.state r.count := by
  unfold outer
  revert h
  generalize r.state = s
  intro h
  cases s <;> first | rfl | exact Bool.noConfusion h

section Lower

variable {r r' : Reg} {u u' : Multiply} {c : Ctl}

theorem After.lowers_of_falls (ha : After r u c r' u') (hfuel : Fueled r u)
    (hflat : flat r.state = true) (h : Falls r.state r.count c) : Lowers r u r' u' := by
  have hflat' : flat r'.state = true := by rw [ha.state]; exact h.flat
  refine ⟨rank_lt_iff.mpr (Or.inl ?_), ?_, fun hs => ?_, fun hs => ?_, fun hs => ?_⟩
  · rw [outer_of_flat hflat, outer_of_flat hflat', ha.state, ha.count]
    exact h.depth
  · have howed := h.owed
    unfold underWay
    rw [ha.state, ha.first, ha.m, ha.stage0]
    by_cases hs : r.state = .sqrt2
    · have hm : u.m.valid.toNat = 1 := by rw [hfuel.sqrt2 hs]; rfl
      simp only [hs, decide_true, Bool.toNat_true] at howed
      omega
    · simp only [hs, decide_false, Bool.toNat_false] at howed
      omega
  · rw [ha.m]
    exact h.sqrt2 (ha.state ▸ hs)
  · rw [hs] at hflat'
    cases hflat'
  · exact absurd (ha.state ▸ hs) h.rounding2

theorem flat_of_waits {s : State} (h : waits s = true) :
    flat s = true ∧ s ≠ .sqrt2 ∧ s ≠ .rounding2 ∧ s ≠ .sqrtOdd := by
  cases s <;> first | exact Bool.noConfusion h | decide

theorem owed_pos {s : State} (h : waits s = true) : 1 ≤ owed s := by
  unfold owed
  split_ifs <;> omega

/-- A state that waits for a product has a part in the third number only. -/
theorem middle_of_waits (hw : waits r.state = true) : middle r = 0 := by
  unfold middle
  revert hw
  generalize r.state = s
  intro hw
  cases s <;> first | rfl | exact Bool.noConfusion hw

theorem inner_of_waits (hw : waits r.state = true) : inner r u = productIn u := by
  unfold inner
  revert hw
  generalize r.state = s
  intro hw
  cases s <;> first | rfl | exact Bool.noConfusion hw

/-- A product that is due comes nearer. -/
theorem After.lowers_of_stays (ha : After r u c r' u') (hfuel : Fueled r u)
    (hw : waits r.state = true)
    (hdone : u.stage1.valid = false) (h : Stays r.state r c) : Lowers r u r' u' := by
  obtain ⟨hflat, hsqrt2, hr2, hodd⟩ := flat_of_waits hw
  have hstate : r'.state = r.state := ha.state.trans h.state
  have hm : u'.m.valid = (sends r.state && r.first) := ha.m.trans h.multiplyValid
  have howed := hfuel.owed
  have hpos := owed_pos hw
  unfold underWay at howed
  rw [hdone] at howed
  refine ⟨rank_lt_iff.mpr (Or.inr ⟨?_, Or.inr ⟨?_, ?_⟩⟩),
    ?_, fun hs => ?_, fun hs => ?_, fun hs => ?_⟩
  · rw [outer_of_flat hflat, outer_of_flat (hstate ▸ hflat), hstate, ha.count, h.count]
  · rw [middle_of_waits hw, middle_of_waits (hstate ▸ hw)]
  · rw [inner_of_waits hw, inner_of_waits (hstate ▸ hw)]
    unfold productIn
    rw [ha.stage0, ha.stage1, hm, hdone]
    cases h0 : u.stage0.valid <;> cases h1 : u.m.valid <;> cases h2 : (sends r.state && r.first) <;>
      simp_all
  · unfold underWay
    rw [hstate, ha.first, h.first, ha.stage0, ha.stage1, hm, Bool.and_false]
    simp only [Bool.toNat_false] at howed ⊢
    omega
  · exact absurd (hstate ▸ hs) hsqrt2
  · exact absurd (hstate ▸ hs) hodd
  · exact absurd (hstate ▸ hs) hr2

/-- A product is there. -/
theorem After.lowers_of_leaves (ha : After r u c r' u') (hfuel : Fueled r u)
    (hw : waits r.state = true)
    (hdone : u.stage1.valid = true) (h : Leaves r.state r c) : Lowers r u r' u' := by
  obtain ⟨hflat, hsqrt2, hr2, hodd⟩ := flat_of_waits hw
  have hflat' : flat r'.state = true := by rw [ha.state]; exact h.flat
  refine ⟨rank_lt_iff.mpr (Or.inl ?_), ?_, fun hs => ?_, fun hs => ?_, fun hs => ?_⟩
  · rw [outer_of_flat hflat, outer_of_flat hflat', ha.state, ha.count]
    exact h.depth
  · have howed := h.owed
    have hall := hfuel.owed
    unfold underWay at hall ⊢
    rw [ha.state, ha.first, ha.m, ha.stage0, ha.stage1, h.multiplyValid]
    by_cases hs : r.state = .sqrt6
    · -- `SQRT_6` has started a product of its own
      rw [hs] at hall
      simp only [hs, decide_true, Bool.toNat_true, hdone, owed, if_true] at hall howed ⊢
      omega
    · simp only [hs, decide_false, Bool.toNat_false] at howed
      omega
  · exact absurd (ha.state ▸ hs) h.sqrt2
  · rw [hs] at hflat'
    cases hflat'
  · exact absurd (ha.state ▸ hs) h.rounding2

end Lower

/-! ### The loops of the rounding -/

section Rounding

variable {r r' : Reg} {u u' : Multiply} {i : Execute1ToFPU} {done : Bool}

/-- A state that relies on nothing. -/
def free (s : State) : Bool :=
  !waits s && s != .sqrt2 && s != .sqrtOdd && s != .rounding2

theorem fueled_of_free (h : free r.state = true) : Fueled r u := by
  simp only [free, Bool.and_eq_true, bne_iff_ne, Bool.not_eq_true'] at h
  obtain ⟨⟨⟨hw, h2⟩, hodd⟩, hr2⟩ := h
  refine ⟨?_, fun hs => absurd hs h2, fun hs => absurd hs hodd, fun hs => absurd hs hr2⟩
  have hne : r.state ≠ .sqrt6 := by
    intro hs
    rw [hs] at hw
    cases hw
  simp [owed, hne, hw]

theorem lowers_of_outer (h : outer r' < outer r) (hfree : free r'.state = true) :
    Lowers r u r' u' :=
  ⟨rank_lt_iff.mpr (Or.inl h), fueled_of_free hfree⟩

theorem lowers_of_middle (ho : outer r' = outer r) (h : middle r' < middle r) (hf : Fueled r' u') :
    Lowers r u r' u' :=
  ⟨rank_lt_iff.mpr (Or.inr ⟨ho, Or.inl h⟩), hf⟩

theorem lowers_of_inner (ho : outer r' = outer r) (hm : middle r' ≤ middle r)
    (h : inner r' u' < inner r u) (hf : Fueled r' u') : Lowers r u r' u' := by
  refine ⟨rank_lt_iff.mpr (Or.inr ⟨ho, ?_⟩), hf⟩
  rcases hm.lt_or_eq with hlt | heq
  · exact Or.inl hlt
  · exact Or.inr ⟨heq, h⟩

/-- The states after a normalisation. -/
theorem next_of_range {c : Ctl} (h : c.state =
    if expTiny r then .roundUflow else if expHuge r then .roundOflow else .rounding) :
    (c.state = .roundUflow ∧ newExp r < 0) ∨ c.state = .roundOflow ∨ c.state = .rounding := by
  rw [h]
  have hmin : minExp r < 0 := by
    unfold minExp
    split_ifs <;> decide
  unfold expTiny
  split_ifs with ht
  · exact Or.inl ⟨rfl, by have := of_decide_eq_true ht; omega⟩
  · exact Or.inr (Or.inl rfl)
  · exact Or.inr (Or.inr rfl)

theorem lowers_of_rounds (hs : r.state = .normalize ∨ r.state = .roundUflow)
    (h : r'.state = .roundOflow ∨ r'.state = .rounding) : Lowers r u r' u' := by
  refine lowers_of_outer ?_ (by rcases h with h | h <;> rw [h] <;> rfl)
  have h0 : outer r' = 0 := by
    unfold outer
    rcases h with h | h <;> rw [h] <;> rfl
  have h1 : outer r = 1 := by
    unfold outer
    rcases hs with hs | hs <;> rw [hs] <;> rfl
  omega

theorem normalize_lowers (hs : r.state = .normalize)
    (ha : After r u (states r i done (base r i)) r' u') : Lowers r u r' u' := by
  have hst : states r i done (base r i) = normalize r (base r i) := states_eq hs
  rw [hst] at ha
  rcases next_of_range (c := normalize r (base r i)) rfl with ⟨hnext, htiny⟩ | hnext | hnext
  · -- the exponent of the normalised mantissa is the one that was too small
    have hexp : r'.resultExp = newExp r := by
      rw [ha.resultExp]
      simp [normalize, rexpSum, notExp, base]
    have hstate : r'.state = .roundUflow := ha.state.trans hnext
    refine lowers_of_middle ?_ ?_ (fueled_of_free (by rw [hstate]; rfl))
    · unfold outer
      rw [hs, hstate]
      rfl
    · unfold middle
      simp only [hs, hstate, hexp, if_pos htiny]
      omega
  · exact lowers_of_rounds (Or.inl hs) (Or.inl (ha.state.trans hnext))
  · exact lowers_of_rounds (Or.inl hs) (Or.inr (ha.state.trans hnext))

theorem roundUflow_lowers (hs : r.state = .roundUflow)
    (ha : After r u (states r i done (base r i)) r' u') : Lowers r u r' u' := by
  have hst : states r i done (base r i) = roundUflow r (base r i) := states_eq hs
  rw [hst] at ha
  by_cases hloop : r.fpscr.getLsbD fpscrUe = true ∧ r.r.getLsbD unitBit = false
  · obtain ⟨hue, hunit⟩ := hloop
    have hstate : r'.state = .normalize := by
      rw [ha.state]
      simp [roundUflow, hue, hunit]
    have hexp : r'.resultExp = r.resultExp + biasExp r := by
      rw [ha.resultExp]
      simp [roundUflow, hue, hunit, rexpSum, notExp, base]
    have hshift : r'.shift ≤ 64 := by
      rw [ha.shift]
      simp only [roundUflow, hue, hunit, nextShift]
      have hclz := (countLeftZeroes r.r).isLt
      simp [base]
      omega
    have hbias : 192 ≤ biasExp r := by
      unfold biasExp
      split_ifs <;> decide
    refine lowers_of_middle ?_ ?_ (fueled_of_free (by rw [hstate]; rfl))
    · unfold outer
      rw [hs, hstate]
      rfl
    · unfold middle newExp
      simp only [hs, hstate, hexp]
      split_ifs <;> omega
  · refine lowers_of_rounds (Or.inr hs) (Or.inr ?_)
    rw [ha.state]
    simp only [roundUflow]
    split_ifs with h1 h2
    · rfl
    · exact absurd ⟨by simpa using h1, by simpa using h2⟩ hloop
    · rfl

/-- In the loop of the overflow the first number is zero. -/
theorem outer_zero {s : State} (hs : r.state = s)
    (h : s = .rounding ∨ s = .roundInc ∨ s = .rounding2 ∨ s = .roundOflow ∨ s = .rounding3 ∨
      s = .denorm) :
    outer r = 0 := by
  unfold outer
  rcases h with rfl | rfl | rfl | rfl | rfl | rfl <;> rw [hs] <;> rfl

theorem roundOflow_lowers (hs : r.state = .roundOflow)
    (ha : After r u (states r i done (base r i)) r' u')
    (hopen : (states r i done (base r i)).arithDone = false) : Lowers r u r' u' := by
  have hst : states r i done (base r i) = roundOflow r (base r i) := states_eq hs
  rw [hst] at ha hopen
  have hoe : r.fpscr.getLsbD fpscrOe = true := by
    by_contra hoe
    rw [Bool.not_eq_true] at hoe
    simp [roundOflow, hoe] at hopen
  have hstate : r'.state = .rounding := by
    rw [ha.state]
    simp [roundOflow, hoe]
  have hr : r'.r = r.r := ha.kept (by simp [roundOflow, hoe])
  refine lowers_of_inner ?_ ?_ ?_ (fueled_of_free (by rw [hstate]; rfl))
  · rw [outer_zero hs (by simp), outer_zero hstate (by simp)]
  · unfold middle
    rw [hs, hstate, hr]
  · unfold inner
    rw [hs, hstate]
    exact (by decide : 4 < 5)

theorem toNat_setBits_zero_le {w n : Nat} (v : BitVec w) (k : Nat) :
    (setBits v k (0 : BitVec n)).toNat ≤ v.toNat := by
  have h : setBits v k (0 : BitVec n) = v &&& ~~~((BitVec.allOnes n).setWidth w <<< k) := by
    unfold setBits
    simp
  rw [h, BitVec.toNat_and]
  exact Nat.and_le_left

/-- The mantissa loses the bits below the last place. -/
theorem rounding_lowers (hs : r.state = .rounding)
    (ha : After r u (states r i done (base r i)) r' u')
    (hopen : (states r i done (base r i)).arithDone = false) : Lowers r u r' u' := by
  have hst : states r i done (base r i) = rounding r (base r i) := states_eq hs
  rw [hst] at ha hopen
  have hnext : (rounding r (base r i)).state = .roundInc ∨
      (rounding r (base r i)).state = .rounding3 := by
    unfold rounding at hopen ⊢
    extract_lets at hopen ⊢
    split_ifs at hopen ⊢
    · exact Or.inl rfl
    · exact Or.inr rfl
  have hstate : r'.state = .roundInc ∨ r'.state = .rounding3 :=
    hnext.imp ha.state.trans ha.state.trans
  have hr : r'.r.toNat ≤ r.r.toNat := by
    have hfields : (rounding r (base r i)).setR = true ∧ (rounding r (base r i)).opselR = .sum ∧
        (rounding r (base r i)).opselA = .zero ∧ (rounding r (base r i)).opselAneg = false ∧
        (rounding r (base r i)).opselAabs = false ∧ (rounding r (base r i)).opselB = .r ∧
        (rounding r (base r i)).opselC = .zero ∧ (rounding r (base r i)).opselMask = true := by
      unfold rounding
      extract_lets
      split_ifs <;> exact ⟨rfl, rfl, rfl, rfl, rfl, rfl, rfl, rfl⟩
    obtain ⟨hset, hsel, hA, hAneg, hAabs, hB, hC, hmask⟩ := hfields
    have hplain : inA r (rounding r (base r i)) + inB r (rounding r (base r i)) +
        (BitVec.ofBool (ci r (rounding r (base r i)))).setWidth 64 = r.r := by
      simp [inA, inB, ci, ci0, inA0, aneg, bneg, hA, hAneg, hAabs, hB, hC]
    rw [ha.summed hset hsel]
    unfold sum
    dsimp only
    rw [hplain, if_pos hmask]
    split_ifs
    · exact (toNat_setBits_zero_le _ _).trans (toNat_setBits_zero_le _ _)
    · exact toNat_setBits_zero_le _ _
  rcases hstate with hstate | hstate
  · refine lowers_of_inner ?_ ?_ ?_ (fueled_of_free (by rw [hstate]; rfl))
    · rw [outer_zero hs (by simp), outer_zero hstate (by simp)]
    · unfold middle
      rw [hs, hstate]
      exact hr
    · unfold inner
      rw [hs, hstate]
      exact (by decide : 3 < 4)
  · refine lowers_of_inner ?_ ?_ ?_ (fueled_of_free (by rw [hstate]; rfl))
    · rw [outer_zero hs (by simp), outer_zero hstate (by simp)]
    · unfold middle
      rw [hs, hstate]
      exact Nat.zero_le _
    · unfold inner
      rw [hs, hstate]
      exact (by decide : 1 < 4)

theorem toNat_ge_of_getLsbD {v : BitVec 64} {k : Nat} (h : v.getLsbD k = true) : 2 ^ k ≤ v.toNat :=
  Nat.ge_two_pow_of_testBit h

/-- The increment is small against a mantissa that it makes overflow. -/
theorem roundInc_lowers (hs : r.state = .roundInc)
    (ha : After r u (states r i done (base r i)) r' u') : Lowers r u r' u' := by
  have hst : states r i done (base r i) = roundInc (base r i) := states_eq hs
  rw [hst] at ha
  have hstate : r'.state = .rounding2 := ha.state
  have hshift : r'.shift = -1 := by
    rw [ha.shift]
    simp [roundInc, nextShift, notExp, base]
  have hfuel : Fueled r' u' := by
    refine ⟨?_, fun h => ?_, fun h => ?_, fun _ => hshift⟩
    · rw [hstate]
      exact Nat.zero_le _
    · rw [hstate] at h
      cases h
    · rw [hstate] at h
      cases h
  have hsum : r'.r.toNat ≤ r.r.toNat + 2 ^ 34 := by
    rw [ha.summed rfl rfl]
    have hplain : sum r (roundInc (base r i)) =
        setBit (setBit 0 spLsb r.i.singlePrec) dpLsb (!r.i.singlePrec) + r.r := by
      simp [sum, inA, inB, ci, ci0, inA0, aneg, bneg, roundInc, base]
    have hsmall : (setBit (setBit (0 : BitVec 64) spLsb r.i.singlePrec) dpLsb
        (!r.i.singlePrec)).toNat ≤
        2 ^ 34 := by
      cases r.i.singlePrec <;> decide
    rw [hplain, BitVec.toNat_add]
    exact (Nat.mod_le _ _).trans (by omega)
  have houter : outer r' = outer r := by
    rw [outer_zero hs (by simp), outer_zero hstate (by simp)]
  cases hcar : carries r' with
  | true =>
      refine lowers_of_middle houter ?_ hfuel
      have hbig : 2 ^ 57 ≤ r'.r.toNat := toNat_ge_of_getLsbD hcar
      unfold middle
      simp only [hs, hstate, hcar, if_true]
      omega
  | false =>
      refine lowers_of_inner houter ?_ ?_ hfuel
      · unfold middle
        simp [hs, hstate, hcar]
      · unfold inner
        simp [hs, hstate, hcar]

theorem toNat_upperShifted_one {s : BitVec 56} :
    (upperShifted (r.r ++ s) (-1)).toNat = r.r.toNat / 2 := by
  have hone : upperShifted (r.r ++ s) (-1) = r.r >>> 1 := by
    unfold upperShifted
    rw [if_pos (by decide), if_neg (by decide)]
    refine BitVec.eq_of_getLsbD_eq fun k hk => ?_
    rw [BitVec.getLsbD_extractLsb', BitVec.getLsbD_ushiftRight, BitVec.getLsbD_append,
      BitVec.getLsbD_ushiftRight]
    have hge : ¬(-(-1) : Int).toNat + (56 + k) < 56 := by omega
    have hidx : (-(-1) : Int).toNat + (56 + k) - 56 = 1 + k := by omega
    rw [if_neg hge, hidx]
    simp [hk]
  rw [hone, BitVec.toNat_ushiftRight, Nat.shiftRight_one]

theorem rounding2_lowers (hs : r.state = .rounding2) (hfuel : Fueled r u)
    (ha : After r u (states r i done (base r i)) r' u')
    (hopen : (states r i done (base r i)).arithDone = false) : Lowers r u r' u' := by
  have hst : states r i done (base r i) = rounding2 r (base r i) := states_eq hs
  rw [hst] at ha hopen
  by_cases hcar : carries r = true
  · unfold carries at hcar
    have hhuge : expHuge r = true := by
      by_contra hno
      rw [Bool.not_eq_true] at hno
      simp [rounding2, hcar, hno] at hopen
    have hstate : r'.state = .roundOflow := by
      rw [ha.state]
      simp [rounding2, hcar, hhuge]
    have hr : r'.r.toNat = r.r.toNat / 2 := by
      rw [ha.shifted (by simp [rounding2, hcar, hhuge]) (by simp [rounding2, hcar, hhuge]),
        hfuel.rounding2 hs]
      have hin : shifterInput r = r.r ++ r.s := by
        unfold shifterInput
        rw [hs]
      rw [hin, toNat_upperShifted_one]
    refine lowers_of_inner ?_ ?_ ?_ (fueled_of_free (by rw [hstate]; rfl))
    · rw [outer_zero hs (by simp), outer_zero hstate (by simp)]
    · unfold middle carries
      simp [hs, hstate, hcar, hr]
    · unfold inner carries
      simp [hs, hstate, hcar]
  · unfold carries at hcar
    rw [Bool.not_eq_true] at hcar
    have hunit : r.r.getLsbD unitBit = false := by
      by_contra hno
      rw [Bool.not_eq_false] at hno
      simp [rounding2, hcar, hno] at hopen
    have hstate : r'.state = .rounding3 := by
      rw [ha.state]
      simp [rounding2, hcar, hunit]
    refine lowers_of_inner ?_ ?_ ?_ (fueled_of_free (by rw [hstate]; rfl))
    · rw [outer_zero hs (by simp), outer_zero hstate (by simp)]
    · unfold middle
      simp [hstate]
    · unfold inner carries
      simp [hs, hstate, hcar]

theorem rounding3_lowers (hs : r.state = .rounding3)
    (ha : After r u (states r i done (base r i)) r' u')
    (hopen : (states r i done (base r i)).arithDone = false) : Lowers r u r' u' := by
  have hst : states r i done (base r i) = rounding3 r (base r i) := states_eq hs
  rw [hst] at ha hopen
  have hstate : r'.state = .denorm := by
    rw [ha.state]
    simp only [rounding3] at hopen ⊢
    split_ifs at hopen ⊢
    rfl
  refine lowers_of_inner ?_ ?_ ?_ (fueled_of_free (by rw [hstate]; rfl))
  · rw [outer_zero hs (by simp), outer_zero hstate (by simp)]
  · unfold middle
    simp [hstate]
  · unfold inner
    simp [hs, hstate]

end Rounding

/-! ### The start of an instruction -/

/-- The states that an instruction starts with. -/
def entry : State → Bool
  | .doMcrfs | .doMtfsb | .doMtfsfi | .doMffs | .doMtfsf | .doFmr | .doFmrg | .doFcmp | .doFtdiv
  | .doFtsqrt
  | .doFsel | .doIllegal | .doFri | .doFrsp | .doFcti | .doFcfid | .doFdiv | .doFadd | .doFsqrt
  | .doFre
  | .doFmul | .doFmadd => true
  | _ => false

theorem entry_execState {e : Execute1ToFPU} (h : isIntegerOp e = false) :
    entry (execState e) = true := by
  have harith : ∀ b : BitVec 5, entry (arithDecode b) = true := by decide
  have hcmp : ∀ b : BitVec 3, entry (cmpDecode b) = true := by decide
  have hmisc : ∀ b : BitVec 5, entry (miscDecode b) = true := by decide
  unfold execState
  cases hop : e.op with
  | fpArith => exact harith _
  | fpCmp => exact hcmp _
  | fpMisc => exact hmisc _
  | fpMove =>
      dsimp only
      split_ifs <;> rfl
  | div | dive | mod => simp [isIntegerOp, hop] at h
  | other => rfl

section Start

variable {r r' : Reg} {u u' : Multiply} {i : Execute1ToFPU} {done : Bool}

/-- What is left to do when the operation of an instruction starts. -/
def startBound (r : Reg) : Nat :=
  (if r.b.exponent % 2 = 1 then 120 else 105) + 40 * (r.b.denorm.toNat + r.c.denorm.toNat)

/-- An instruction starts a few steps away from the rounding, a square root apart. -/
theorem depth_le_of_entry {s : State} (h : entry s = true) :
    s = .doFsqrt ∨ flat s = true ∧ ∀ count, depth s count ≤ 105 := by
  cases s <;>
    first
    | exact Bool.noConfusion h
    | exact Or.inl rfl
    | exact Or.inr ⟨rfl, fun _ => of_decide_eq_true rfl⟩

theorem outer_le_of_entry (h : entry r.state = true) : outer r ≤ startBound r := by
  have hmin : 105 ≤ startBound r := by
    unfold startBound
    split_ifs <;> omega
  rcases depth_le_of_entry h with hs | ⟨hflat, hdepth⟩
  · unfold outer
    rw [hs]
    exact le_rfl
  · rw [outer_of_flat hflat]
    exact (hdepth _).trans hmin

theorem free_of_entry {s : State} (h : entry s = true) : free s = true := by
  cases s <;> first | rfl | exact Bool.noConfusion h

theorem fueled_of_entry (h : entry r.state = true) : Fueled r u := fueled_of_free (free_of_entry h)

theorem lowers_of_entry (hs : entry r'.state = true) (h : startBound r' < outer r) :
    Lowers r u r' u' :=
  ⟨rank_lt_iff.mpr (Or.inl ((outer_le_of_entry hs).trans_lt h)), fueled_of_entry hs⟩

/-- A denormalised operand that is left. -/
theorem lowers_of_renorm (hs : r'.state = .renormA ∨ r'.state = .renormB ∨ r'.state = .renormC)
    (h : outer r' < outer r) : Lowers r u r' u' :=
  lowers_of_outer h (by rcases hs with hs | hs | hs <;> rw [hs] <;> rfl)

theorem doSpecial_lowers (hs : r.state = .doSpecial) (hentry : entry r.execState = true)
    (hv : i.valid = false) (ha : After r u (states r i done (base r i)) r' u') :
    Lowers r u r' u' := by
  have hst : states r i done (base r i) = doSpecial r (base r i) := states_eq hs
  rw [hst] at ha
  have hb : r'.b.denorm = r.b.denorm := by simp [ha.bDenorm, doSpecial, base, hv]
  have hc : r'.c.denorm = r.c.denorm := by simp [ha.cDenorm, doSpecial, base, hv]
  have houter : outer r = 139 + 40 * (r.b.denorm.toNat + r.c.denorm.toNat) := by
    unfold outer
    simp only [hs]
  have hstart : entry r'.state = true → Lowers r u r' u' := by
    intro hgo
    refine lowers_of_entry hgo ?_
    rw [houter]
    unfold startBound
    rw [hb, hc]
    split_ifs <;> omega
  have hstate := ha.state
  simp only [doSpecial] at hstate
  split_ifs at hstate with hA hC hB hmul
  · refine lowers_of_renorm (Or.inl hstate) ?_
    rw [houter]
    unfold outer
    simp only [hstate, hb, hc]
    omega
  · refine lowers_of_renorm (Or.inr (Or.inr hstate)) ?_
    rw [houter]
    unfold outer
    simp only [hstate, hb]
    omega
  · refine lowers_of_renorm (Or.inr (Or.inl hstate)) ?_
    rw [houter]
    unfold outer
    simp only [hstate, hc]
    omega
  · exact hstart (by rw [hstate]; rfl)
  · exact hstart (by rw [hstate, hentry])

/-- The operand that is denormalised is no longer after its state. -/
theorem renorm_lowers (hs : r.state = .renormA ∨ r.state = .renormB ∨ r.state = .renormC)
    (hv : i.valid = false) (ha : After r u (states r i done (base r i)) r' u') :
    Lowers r u r' u' := by
  have hnext : r'.state = .renorm1 ∧
      outer r = 138 + 40 * (r'.b.denorm.toNat + r'.c.denorm.toNat) := by
    rw [ha.state, ha.bDenorm, ha.cDenorm]
    unfold outer states
    rcases hs with hs | hs | hs <;> simp [hs, renormA, renormB, renormC, base, hv]
  refine lowers_of_outer ?_ (by rw [hnext.1]; rfl)
  rw [hnext.2]
  unfold outer
  simp only [hnext.1]
  omega

theorem renorm1_lowers (hs : r.state = .renorm1) (hv : i.valid = false)
    (ha : After r u (states r i done (base r i)) r' u') : Lowers r u r' u' := by
  have hst : states r i done (base r i) = renorm1 r (base r i) := states_eq hs
  rw [hst] at ha
  have hstate : r'.state = .renorm2 := ha.state
  have hb : r'.b.denorm = r.b.denorm := by simp [ha.bDenorm, renorm1, base, hv]
  have hc : r'.c.denorm = r.c.denorm := by simp [ha.cDenorm, renorm1, base, hv]
  refine lowers_of_outer ?_ (by rw [hstate]; rfl)
  unfold outer
  simp only [hs, hstate, hb, hc]
  split_ifs <;> omega

/-- The exponent of B after `RENORM_2` has the parity that `outer` looks at. -/
theorem renorm2_lowers (hs : r.state = .renorm2) (hentry : entry r.execState = true)
    (hv : i.valid = false) (ha : After r u (states r i done (base r i)) r' u') :
    Lowers r u r' u' := by
  have hst : states r i done (base r i) = renorm2 r (base r i) := states_eq hs
  rw [hst] at ha
  have hb : r'.b.denorm = r.b.denorm := by simp [ha.bDenorm, renorm2, base, hv]
  have hc : r'.c.denorm = r.c.denorm := by simp [ha.cDenorm, renorm2, base, hv]
  have hexp : r'.b.exponent = renormedExp r := by
    rw [ha.bExponent]
    simp [setOperand, renorm2, renormedExp, base]
  have hstart : entry r'.state = true → Lowers r u r' u' := by
    intro hgo
    refine lowers_of_entry hgo ?_
    unfold startBound outer
    simp only [hs, hb, hc, hexp]
    split_ifs <;> omega
  have hstate := ha.state
  simp only [renorm2] at hstate
  split_ifs at hstate with hC hB hmul
  · refine lowers_of_renorm (Or.inr (Or.inr hstate)) ?_
    unfold outer
    simp only [hs, hstate, hb, hC, Bool.toNat_true]
    split_ifs <;> omega
  · rw [Bool.and_eq_true] at hB
    refine lowers_of_renorm (Or.inr (Or.inl hstate)) ?_
    rw [Bool.not_eq_true] at hC
    unfold outer
    simp only [hs, hstate, hc, hC, hB.1, Bool.toNat_true, Bool.toNat_false]
    split_ifs <;> omega
  · exact hstart (by rw [hstate]; rfl)
  · exact hstart (by rw [hstate, hentry])

theorem doFsqrt_lowers (hs : r.state = .doFsqrt) (hv : i.valid = false)
    (ha : After r u (states r i done (base r i)) r' u') : Lowers r u r' u' := by
  have hst : states r i done (base r i) = doFsqrt r (base r i) := states_eq hs
  rw [hst] at ha
  have hb : r'.b.denorm = r.b.denorm := by simp [ha.bDenorm, doFsqrt, base, hv]
  have hc : r'.c.denorm = r.c.denorm := by simp [ha.cDenorm, doFsqrt, base, hv]
  have hexp : r'.resultExp = r.b.exponent := by
    rw [ha.resultExp]
    simp [doFsqrt, rexpSum, notExp, base]
  have hstate := ha.state
  simp only [doFsqrt] at hstate
  split_ifs at hstate with hodd hinv
  · refine ⟨rank_lt_iff.mpr (Or.inl ?_), ?_, fun h => ?_, fun _ => hexp.symm ▸ hodd, fun h => ?_⟩
    · unfold outer
      simp only [hs, hstate, hb, hc, if_pos hodd]
      omega
    · rw [hstate]
      exact Nat.zero_le _
    · rw [hstate] at h
      cases h
    · rw [hstate] at h
      cases h
  all_goals
    refine lowers_of_outer ?_ (by rw [hstate]; rfl)
    unfold outer
    rw [hs, hstate]
    dsimp only
    rw [if_neg hodd]
    exact Nat.lt_of_lt_of_le (of_decide_eq_true rfl) (Nat.le_add_right 105 _)

/-- A shift by one makes an odd exponent even. -/
theorem sqrtOdd_lowers (hs : r.state = .sqrtOdd) (hfuel : Fueled r u) (hv : i.valid = false)
    (ha : After r u (states r i done (base r i)) r' u') : Lowers r u r' u' := by
  have hst : states r i done (base r i) = sqrtOdd (base r i) := states_eq hs
  rw [hst] at ha
  have hb : r'.b.denorm = r.b.denorm := by simp [ha.bDenorm, sqrtOdd, base, hv]
  have hc : r'.c.denorm = r.c.denorm := by simp [ha.cDenorm, sqrtOdd, base, hv]
  have hstate : r'.state = .renorm2 := ha.state
  have heven : renormedExp r' % 2 = 0 := by
    have hsel : r'.regsel = .b := ha.regsel
    have hshift : r'.shift = 1 := by
      rw [ha.shift]
      simp [sqrtOdd, nextShift, notExp, base]
    have hexp : r'.resultExp = r.resultExp := by
      rw [ha.resultExp]
      simp [sqrtOdd, base]
    have hodd := hfuel.sqrtOdd hs
    unfold renormedExp newExp
    rw [if_pos hsel, hshift, hexp]
    omega
  refine lowers_of_outer ?_ (by rw [hstate]; rfl)
  unfold outer
  simp only [hs, hstate, hb, hc, heven]
  simp

end Start

/-! ### A cycle of an instruction -/

/-- An instruction other than an integer division is in progress. -/
structure Floats (r : Reg) : Prop where
  kind : computes r.state = true ∧ computes r.execState = true ∨ brief r.state = true
  entry : entry r.execState = true

section Step

variable {r r' : Reg} {u u' : Multiply} {i : Execute1ToFPU} {done : Bool}

/-- Comparisons and tests take a few cycles, the others one. -/
theorem brief_lowers (hs : brief r.state = true) (ha : After r u (states r i done (base r i)) r' u')
    (hopen : (states r i done (base r i)).instrDone = false)
    (harith : (states r i done (base r i)).arithDone = false) :
    brief r'.state = true ∧ Lowers r u r' u' := by
  have hfalls : ∀ s, r'.state = s → brief s = true → free s = true → outer r' < outer r →
      brief r'.state = true ∧ Lowers r u r' u' := by
    intro s hs' hb hf ho
    exact ⟨hs' ▸ hb, lowers_of_outer ho (hs' ▸ hf)⟩
  have hat : ∀ s, flat s = true → ∀ q : Reg, q.state = s → outer q = depth s q.count := by
    intro s hflat q hq
    rw [outer_of_flat (hq ▸ hflat), hq]
  have hstate := ha.state
  rcases eq_of_brief hs with hst | hst | hst | hst | hst | hrest
  · rw [states_eq hst] at hopen hstate
    change r'.state = (doFcmp r (base r i)).state at hstate
    have hgo : r'.state = .cmp1 := by
      rcases (doFcmp_compares (r := r) (c := base r i)).goes with hgo | hgo
      · exact hstate.trans hgo
      · exact absurd (hgo.symm.trans hopen) Bool.noConfusion
    refine hfalls _ hgo rfl rfl ?_
    rw [hat _ rfl r hst, hat _ rfl r' hgo]
    exact of_decide_eq_true rfl
  · rw [states_eq hst] at hstate
    refine hfalls _ hstate rfl rfl ?_
    rw [hat _ rfl r hst, hat _ rfl r' hstate]
    exact of_decide_eq_true rfl
  · rw [states_eq hst] at hopen hstate
    have hgo : r'.state = .ftdiv1 := by
      rw [hstate]
      change (doFtdiv r (base r i)).instrDone = false at hopen
      change (doFtdiv r (base r i)).state = .ftdiv1
      unfold doFtdiv at hopen ⊢
      split_ifs at hopen ⊢
      · rfl
    refine hfalls _ hgo rfl rfl ?_
    rw [hat _ rfl r hst, hat _ rfl r' hgo]
    exact of_decide_eq_true rfl
  · -- the second comparison is the last one
    have hfirst := ha.first
    rw [states_eq hst] at hopen hstate hfirst
    change (ftdiv1 r (base r i)).instrDone = false at hopen
    change r'.first = (ftdiv1 r (base r i)).first at hfirst
    change r'.state = (ftdiv1 r (base r i)).state at hstate
    unfold ftdiv1 at hopen hfirst hstate
    split_ifs at hopen hfirst hstate with hlast
    have hlow : r.first = true := by
      by_contra hno
      simp [hno] at hlast
    have hstay : r'.state = .ftdiv1 := hstate.trans hst
    refine ⟨by rw [hstay]; rfl, lowers_of_inner ?_ ?_ ?_ (fueled_of_free (by rw [hstay]; rfl))⟩
    · rw [hat _ rfl r hst, hat _ rfl r' hstay]
      rfl
    · unfold middle
      rw [hst, hstay]
    · unfold inner
      rw [hst, hstay, hlow, hfirst]
      exact Nat.zero_lt_one
  · rw [states_eq hst] at hopen
    change (doMffs r (base r i)).instrDone = false at hopen
    unfold doMffs at hopen
    split at hopen <;> cases hopen
  · exfalso
    rcases hrest with hst | hst | hst | hst | hst | hst | hst | hst | hst | hst <;>
      rw [states_eq hst] at hopen harith <;> first | cases hopen | cases harith

theorem flat_of_plain {s : State} (h : plain s = true) : flat s = true := by
  cases s <;> first | rfl | exact Bool.noConfusion h

/-- The states whose steps have a lemma of their own. -/
theorem mem_of_computes {s : State} (hcomp : computes s = true) (hplain : plain s = false)
    (hw : waits s = false) :
    s ∈ [.doSpecial, .doFsqrt, .sqrtOdd, .normalize, .roundUflow, .roundOflow, .rounding, .roundInc,
      .rounding2, .rounding3, .denorm, .renormA, .renormB, .renormC, .renorm1, .renorm2] := by
  cases s <;>
    first
    | exact Bool.noConfusion hcomp
    | exact Bool.noConfusion hplain
    | exact Bool.noConfusion hw
    | decide

theorem Floats.lowers (h : Floats r) (hfuel : Fueled r u) (hv : i.valid = false)
    (ha : After r u (states r i u.stage1.valid (base r i)) r' u')
    (hinstr : (states r i u.stage1.valid (base r i)).instrDone = false)
    (harith : (states r i u.stage1.valid (base r i)).arithDone = false) :
    Floats r' ∧ Lowers r u r' u' := by
  have hentry : Fpu.entry r'.execState = true := ha.execState ▸ h.entry
  rcases h.kind with ⟨hcomp, hexec⟩ | hbrief
  · have hkeep : Keeps (base r i) (states r i u.stage1.valid (base r i)) :=
      states_keeps rfl hcomp hexec
    refine ⟨⟨Or.inl ⟨ha.state ▸ hkeep.state, ha.execState ▸ hexec⟩, hentry⟩, ?_⟩
    by_cases hplain : plain r.state = true
    · have hflat : flat r.state = true := flat_of_plain hplain
      exact ha.lowers_of_falls hfuel hflat (plain_falls rfl hplain harith)
    by_cases hw : waits r.state = true
    · cases hdone : u.stage1.valid with
      | false =>
          rw [hdone] at ha
          exact ha.lowers_of_stays hfuel hw hdone (waits_stays rfl rfl rfl rfl hw)
      | true =>
          rw [hdone] at ha
          exact ha.lowers_of_leaves hfuel hw hdone (waits_leaves rfl rfl hw)
    have hmem := mem_of_computes hcomp (by simpa using hplain) (by simpa using hw)
    simp only [List.mem_cons, List.not_mem_nil, or_false] at hmem
    rcases hmem with hs | hs | hs | hs | hs | hs | hs | hs | hs | hs | hs | hs | hs | hs | hs | hs
    · exact doSpecial_lowers hs h.entry hv ha
    · exact doFsqrt_lowers hs hv ha
    · exact sqrtOdd_lowers hs hfuel hv ha
    · exact normalize_lowers hs ha
    · exact roundUflow_lowers hs ha
    · exact roundOflow_lowers hs ha harith
    · exact rounding_lowers hs ha harith
    · exact roundInc_lowers hs ha
    · exact rounding2_lowers hs hfuel ha harith
    · exact rounding3_lowers hs ha harith
    · rw [states_eq hs] at harith
      cases harith
    · exact renorm_lowers (Or.inl hs) hv ha
    · exact renorm_lowers (Or.inr (Or.inl hs)) hv ha
    · exact renorm_lowers (Or.inr (Or.inr hs)) hv ha
    · exact renorm1_lowers hs hv ha
    · exact renorm2_lowers hs h.entry hv ha
  · obtain ⟨hb, hl⟩ := brief_lowers hbrief ha hinstr harith
    exact ⟨⟨Or.inr hb, hentry⟩, hl⟩

theorem Floats.not_idle (h : Floats r) : r.state ≠ .idle := by
  intro hidle
  rcases h.kind with ⟨hcomp, -⟩ | hbrief
  · rw [hidle] at hcomp
    cases hcomp
  · rw [hidle] at hbrief
    cases hbrief

/-- A cycle of the unit ends the instruction or lowers the rank. -/
theorem Floats.step (lut : BitVec 10 → BitVec 18) {v : Machine} {j : Inputs} (h : Floats v.reg)
    (hfuel : Fueled v.reg v.multiply) (hrst : j.rst = false) (hflush : j.flushIn = false)
    (hv : j.eIn.valid = false) : (v.step lut j).reg.state = .idle ∨
      Floats (v.step lut j).reg ∧
        Lowers v.reg v.multiply (v.step lut j).reg (v.step lut j).multiply := by
  have hreg : (v.step lut j).reg = rin v.reg j.eIn v.inverseEst v.multiply.out := by
    unfold Machine.step
    simp only [hrst, hflush, Bool.or_self, Bool.false_eq_true, if_false]
  have hmul : (v.step lut j).multiply =
      v.multiply.step (toMultiply v.reg (ctl v.reg j.eIn v.multiply.stage1.valid) v.inverseEst) :=
        rfl
  rw [hreg, hmul]
  cases hopen : nextInstrDone v.reg (ctl v.reg j.eIn v.multiply.stage1.valid) with
  | true =>
      have hends : ends v.reg (ctl v.reg j.eIn v.multiply.stage1.valid) = true := by
        simpa [ends, h.not_idle] using hopen
      exact Or.inl (by rw [state_rin]; exact if_pos hends)
  | false =>
      obtain ⟨f, inv, zd, qnan, hctl⟩ := ctl_of_open hopen
      have hquiet := hopen
      rw [hctl] at hquiet
      simp only [nextInstrDone, arithDone, Ctl.withSpecial, Bool.or_eq_false_iff] at hquiet
      exact Or.inr (h.lowers hfuel hv (after_of_open hv hopen) hquiet.1 hquiet.2.1)

end Step

/-! ## Runs -/

section Runs

variable {lut : BitVec 10 → BitVec 18} {u : Machine} {ins : Nat → Inputs}

theorem computes_or_brief {s : State} (h : entry s = true) :
    computes s = true ∨ brief s = true := by
  cases s <;> first | exact Or.inl rfl | exact Or.inr rfl | exact Bool.noConfusion h

/-- The registers and the multiplier right after an instruction has come in. -/
theorem floats_of_accepts {r : Reg} {i : Execute1ToFPU} {t : BitVec 19} {m : MultiplyOutput}
    (hs : r.state = .idle) (hv : i.valid = true) (hop : isIntegerOp i = false)
    (hlegal : execState i ≠ .doIllegal) (v : Multiply) :
    Floats (rin r i t m) ∧ Fueled (rin r i t m) v := by
  have hends : ends r (ctl r i m.valid) = false := by simp [ends, hs]
  have hstate : (rin r i t m).state =
      if isNanInf i || isZeroDen i then .doSpecial else execState i := by
    rw [state_rin, hends, states_idle m.valid hs, if_neg Bool.false_ne_true, if_pos hv]
  have hexec : (rin r i t m).execState = execState i := by simp [rin, rinOf, accepts, hs, hv]
  have hentry := entry_execState hop
  split_ifs at hstate with hspecial
  · have ha : isArith i = true := by
      unfold isNanInf isZeroDen at hspecial
      rw [← Bool.and_or_distrib_left, Bool.and_eq_true] at hspecial
      exact hspecial.1
    have hcomp : computes (execState i) = true :=
      IsArith.computes ⟨hv, by simpa [isArith] using ha, hlegal⟩
    refine ⟨⟨Or.inl ⟨by rw [hstate]; rfl, by rw [hexec]; exact hcomp⟩, hexec ▸ hentry⟩, ?_⟩
    exact fueled_of_free (by rw [hstate]; rfl)
  · refine ⟨⟨?_, hexec ▸ hentry⟩, fueled_of_entry (hstate ▸ hentry)⟩
    rw [hstate, hexec]
    exact (computes_or_brief hentry).imp_left fun hcomp => ⟨hcomp, hcomp⟩

/-- From any of its states on, an instruction reaches its end. -/
theorem ends_of_floats (h : Fed lut u ins) (hrst : (ins 0).rst = true) {n : Nat}
    (hno : ∀ k, n ≤ k → (ins k).rst = false ∧ (ins k).flushIn = false)
    (hfl : Floats (regs lut u ins (n + 1)))
    (hfuel : Fueled (regs lut u ins (n + 1))
      (Clocked.trace (Machine.step lut) u ins (n + 1)).multiply) :
    ∃ m, n + 1 < m ∧ (regs lut u ins m).state = .idle ∧
      ∀ k, n < k → k < m → (regs lut u ins k).state ≠ .idle := by
  induction hrank : rank (regs lut u ins (n + 1))
    (Clocked.trace (Machine.step lut) u ins (n + 1)).multiply
      using WellFoundedLT.induction generalizing n with
  | ind q ih =>
      obtain ⟨hrst', hflush'⟩ := hno (n + 1) (Nat.le_succ n)
      have hbusy := (kept_trace lut u hrst n).busy hfl.not_idle
      have hv : (ins (n + 1)).eIn.valid = false := by
        by_contra hv
        rw [(h.valid (n + 1) (by simpa using hv)).1] at hbusy
        cases hbusy
      rcases hfl.step lut hfuel hrst' hflush' hv with hidle | ⟨hfl', hlow, hfuel'⟩
      · refine ⟨n + 2, by omega, hidle, fun k hk hlt => ?_⟩
        obtain rfl : k = n + 1 := by omega
        exact hfl.not_idle
      · obtain ⟨m, hm, hidle, hgo⟩ :=
          ih _ (hrank ▸ hlow) (fun k hk => hno k (by omega)) hfl' hfuel' rfl
        refine ⟨m, by omega, hidle, fun k hk hlt => ?_⟩
        rcases Nat.lt_or_ge (n + 1) k with hk' | hk'
        · exact hgo k hk' hlt
        · obtain rfl : k = n + 1 := by omega
          exact hfl.not_idle

end Runs

/-- Every instruction that is not an integer division ends, unless a reset or a flush comes. -/
theorem instruction_ends (lut : BitVec 10 → BitVec 18) (u : Machine) (ins : Nat → Inputs)
    (hfed : Fed lut u ins) (hrst : (ins 0).rst = true) (n : Nat) (hv : (ins n).eIn.valid = true)
    (hop : isIntegerOp (ins n).eIn = false) (hlegal : execState (ins n).eIn ≠ .doIllegal)
    (hno : ∀ k, n ≤ k → (ins k).rst = false ∧ (ins k).flushIn = false) :
    ∃ m, Executes lut u ins n m := by
  obtain ⟨hrst', hflush'⟩ := hno n le_rfl
  have hidle : (regs lut u ins n).state = .idle := by
    cases n with
    | zero => simp [hrst] at hrst'
    | succ l =>
        by_contra hbusy
        have := (kept_trace lut u hrst l).busy hbusy
        rw [(hfed.valid (l + 1) hv).1] at this
        cases this
  obtain ⟨est, mul, hnext⟩ := regs_succ_of lut u hrst' hflush'
  obtain ⟨hfl, hfuel⟩ := floats_of_accepts (t := est) (m := mul) hidle hv hop hlegal
    (Clocked.trace (Machine.step lut) u ins (n + 1)).multiply
  rw [← hnext] at hfl hfuel
  obtain ⟨m, hm, hdone, hgo⟩ := ends_of_floats hfed hrst hno hfl hfuel
  exact ⟨m, by omega, hidle, hv, hlegal, fun k hk _ => hno k hk, hgo, hdone⟩

/-- A rounding to single precision that comes in two edges after a reset ends. -/
theorem instruction_ends_frsp :
    ∃ m, Executes (fun _ => 0) .cold (afterReset (frsp 0x3FF8000000000001)) 2 m := by
  refine instruction_ends _ _ _ (fed_afterReset _ rfl) rfl 2 rfl rfl (by decide) fun k hk => ?_
  have hne : k ≠ 0 := by omega
  exact ⟨by simp [afterReset, hne], rfl⟩

end Microwatt.Fpu
