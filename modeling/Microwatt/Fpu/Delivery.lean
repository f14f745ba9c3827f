import Microwatt.Fpu.Termination

/-!
# What the unit shows to writeback

The unit owes writeback an outcome for every instruction that it has taken: a completion or an
interrupt, with the tag, the registers and the field of CR of the instruction.  Outcomes are shown
in the order of the instructions, and only for instructions that are owed one, unless a reset or a
flush comes in the second cycle of an arithmetic instruction.
-/

namespace Microwatt.Fpu

open Writeback (FPUToWriteback)

/-! ## The states of an instruction -/

/-- The states of instructions that write no register: comparisons, tests and changes of the
FPSCR. -/
def silent : State → Bool
  | .doMcrfs | .doMtfsb | .doMtfsfi | .doMtfsf | .doFcmp | .cmp1 | .cmp2 | .doFtdiv | .ftdiv1
  | .doFtsqrt => true
  | _ => false

/-- The states of an instruction in progress, which is in `DO_ILLEGAL` only if it is not legal. -/
def inside (legal : Bool) (s : State) : Bool := s != .idle && (s != .doIllegal || !legal)

/-- What a state tells the registers for writeback. -/
structure Tells (legal : Bool) (r : Reg) (c : Ctl) : Prop where
  state : inside legal c.state = true
  /-- Only integer divisions write XER. -/
  crOp : c.crOp ≠ .intres ∨ r.state = .idivDone ∧ c.instrDone = true
  illegal : c.illegal = false ∨ r.state = .doIllegal

/-- What a state of an instruction that writes no register does. -/
structure Hushes (c c' : Ctl) : Prop where
  state : silent c'.state = true
  writingFpr : c'.writingFpr = c.writingFpr
  arithDone : c'.arithDone = c.arithDone
  rclsOp : c'.rclsOp = c.rclsOp

section States

variable {legal : Bool} {r : Reg} {i : Execute1ToFPU} {done : Bool} {c : Ctl}

theorem Tells.ite {p : Prop} [Decidable p] {c₁ c₂ : Ctl} (h₁ : Tells legal r c₁)
    (h₂ : Tells legal r c₂) :
    Tells legal r (if p then c₁ else c₂) := by
  split_ifs
  · exact h₁
  · exact h₂

theorem inside_ite {p : Prop} [Decidable p] {s₁ s₂ : State} (h₁ : inside legal s₁ = true)
    (h₂ : inside legal s₂ = true) : inside legal (if p then s₁ else s₂) = true := by
  split_ifs
  · exact h₁
  · exact h₂

theorem states_tells (hc : c.state = r.state) (hcr : c.crOp = .none) (hill : c.illegal = false)
    (hs : inside legal r.state = true) (hx : inside legal r.execState = true) :
    Tells legal r (states r i done c) := by
  have hsame : inside legal c.state = true := hc ▸ hs
  have hno : c.crOp ≠ .intres := by
    rw [hcr]
    exact Crop.noConfusion
  have hall : ∀ s, r.state = s → inside legal s = true →
      Tells legal r (branch s r i done c) := by
    intro s hst hs
    cases s
    case idle => cases hs
    case doIllegal => exact ⟨hsame, Or.inl hno, Or.inr hst⟩
    case idivDone => exact ⟨hsame, Or.inr ⟨hst, rfl⟩, Or.inl hill⟩
    case doMffs =>
      change Tells legal r (doMffs _ c)
      unfold doMffs
      split <;> exact ⟨hsame, Or.inl hno, Or.inl hill⟩
    -- in the next three a record that is chosen by cases is changed further
    case doFcmp =>
      change Tells legal r (doFcmp _ c)
      unfold doFcmp
      extract_lets c₀ snan c₁
      have hmarks : c₁.state = c.state ∧ c₁.crOp = .fcmp ∧ c₁.illegal = c.illegal := by
        unfold c₁
        split_ifs <;> exact ⟨rfl, rfl, rfl⟩
      have hcmp : c₁.crOp ≠ .intres := by
        rw [hmarks.2.1]
        exact Crop.noConfusion
      have hlegal : c₁.illegal = false := hmarks.2.2.trans hill
      exact Tells.ite ⟨rfl, Or.inl hcmp, Or.inl hlegal⟩ ⟨hmarks.1 ▸ hsame, Or.inl hcmp,
        Or.inl hlegal⟩
    case doFsel =>
      change Tells legal r (doFsel _ c)
      unfold doFsel
      extract_lets c₀ c₁
      have hsel : Tells legal r c₁ := by
        unfold c₁
        split_ifs <;> exact ⟨hsame, Or.inl hno, Or.inl hill⟩
      exact ⟨hsel.state, hsel.crOp, hsel.illegal⟩
    case idivNr1 =>
      change Tells legal r (idivNr1 _ c done)
      unfold idivNr1
      extract_lets c₀ c₁
      have hnr : Tells legal r c₁ := by
        unfold c₁
        split_ifs
        exacts [⟨rfl, Or.inl hno, Or.inl hill⟩, ⟨rfl, Or.inl hno, Or.inl hill⟩,
          ⟨hsame, Or.inl hno, Or.inl hill⟩, ⟨hsame, Or.inl hno, Or.inl hill⟩]
      exact Tells.ite ⟨rfl, hnr.crOp, hnr.illegal⟩ hnr
    -- the two states that go on to the state that was decoded
    case doSpecial =>
      exact ⟨inside_ite rfl (inside_ite rfl (inside_ite rfl (inside_ite rfl hx))), Or.inl hno,
        Or.inl hill⟩
    case renorm2 => exact ⟨inside_ite rfl (inside_ite rfl (inside_ite rfl hx)), Or.inl hno,
      Or.inl hill⟩
    all_goals
      repeat'
        first
        | exact ⟨rfl, Or.inl hno, Or.inl hill⟩
        | exact ⟨hsame, Or.inl hno, Or.inl hill⟩
        | refine Tells.ite ?_ ?_
        | exact ⟨rfl, Or.inl Crop.noConfusion, Or.inl hill⟩
        | exact ⟨hsame, Or.inl Crop.noConfusion, Or.inl hill⟩
        | exact ⟨inside_ite rfl rfl, Or.inl hno, Or.inl hill⟩
        | exact ⟨inside_ite rfl (inside_ite rfl rfl), Or.inl hno, Or.inl hill⟩
  exact hall _ rfl hs

theorem Hushes.ite {p : Prop} [Decidable p] {c₁ c₂ : Ctl} (h₁ : Hushes c c₁) (h₂ : Hushes c c₂) :
    Hushes c (if p then c₁ else c₂) := by
  split_ifs
  · exact h₁
  · exact h₂

theorem eq_of_silent {s : State} (h : silent s = true) : s = .doFcmp ∨ s = .doMcrfs ∨ s = .doMtfsb ∨
    s = .doMtfsfi ∨ s = .doMtfsf ∨ s = .cmp1 ∨ s = .cmp2 ∨ s = .doFtdiv ∨ s = .ftdiv1 ∨
      s = .doFtsqrt := by
  cases s <;> first | exact Bool.noConfusion h | decide

theorem states_hushes (hc : c.state = r.state) (hs : silent r.state = true) :
    Hushes c (states r i done c) := by
  have hsame : silent c.state = true := hc ▸ hs
  rcases eq_of_silent hs with hst | hst | hst | hst | hst | hst | hst | hst | hst | hst <;>
    rw [states_eq hst]
  · change Hushes c (doFcmp _ c)
    unfold doFcmp
    extract_lets c₀ snan c₁
    have hmarks : Hushes c c₁ := by
      unfold c₁
      split_ifs <;> exact ⟨hsame, rfl, rfl, rfl⟩
    exact Hushes.ite ⟨rfl, hmarks.writingFpr, hmarks.arithDone, hmarks.rclsOp⟩
      ⟨hmarks.state, hmarks.writingFpr, hmarks.arithDone, hmarks.rclsOp⟩
  all_goals
    first
    | exact ⟨hsame, rfl, rfl, rfl⟩
    | exact ⟨rfl, rfl, rfl, rfl⟩
    | exact Hushes.ite ⟨hsame, rfl, rfl, rfl⟩ ⟨hsame, rfl, rfl, rfl⟩
    | exact Hushes.ite ⟨rfl, rfl, rfl, rfl⟩ ⟨hsame, rfl, rfl, rfl⟩

/-- Instructions that do not compute go through a few states of their own. -/
theorem brief_states (hc : c.state = r.state) (hs : brief r.state = true) :
    brief (states r i done c).state = true := by
  have hsilent : ∀ s, silent s = true → brief s = true := by
    intro s h
    rcases eq_of_silent h with hst | hst | hst | hst | hst | hst | hst | hst | hst | hst <;>
      rw [hst] <;> rfl
  have hsame : brief c.state = true := hc ▸ hs
  by_cases hsil : silent r.state = true
  · exact hsilent _ (states_hushes hc hsil).state
  rcases eq_of_brief hs with hst | hst | hst | hst | hst | hst | hst | hst | hst | hst | hst |
    hst | hst |
    hst | hst <;> (try exact absurd (by rw [hst]; rfl) hsil) <;> rw [states_eq hst]
  · change brief (doMffs _ c).state = true
    unfold doMffs
    split <;> exact hsame
  · exact hsame
  · exact hsame
  · change brief (doFsel _ c).state = true
    unfold doFsel
    extract_lets c₀ c₁
    have hsel : c₁.state = c.state := by
      unfold c₁
      split_ifs <;> rfl
    exact hsel ▸ hsame
  · exact hsame

end States

/-! ## An instruction in the unit -/

/-- The state goes with the kind of the instruction. -/
def Fits (e : Execute1ToFPU) (s : State) : Prop :=
  isIntegerOp e = true ∨ computes s = true ∧ computes (execState e) = true ∨ brief s = true

/-- The instruction is in progress. -/
structure Taken (e : Execute1ToFPU) (r : Reg) : Prop where
  captured : ∃ f, r.i = captured e f
  execState : r.execState = Fpu.execState e
  /-- The outcome of the instruction before is shown by now. -/
  seen : r.instrDone = true → outputsSeen r = true
  cycle1Ar : r.cycle1Ar = true → isArith e = true
  inside : inside (Fpu.execState e != .doIllegal) r.state = true
  fits : Fpu.execState e ≠ .doIllegal → Fits e r.state
  silent : silent (Fpu.execState e) = true → silent r.state = true

/-- The field of CR that an instruction assigns. -/
def crField (e : Execute1ToFPU) : BitVec 3 :=
  if isIntegerOp e then 0 else if !e.outCr then 1 else insnBf e.insn

/-- The instruction has ended, and the registers hold its outcome. -/
structure Due (e : Execute1ToFPU) (r : Reg) : Prop where
  instrDone : r.instrDone = true
  tag : r.completeTag = e.itag
  writeReg : r.writeReg = e.frt
  crMask : r.crMask = numToFxm (crField e)
  writingCr : r.writingCr = (e.outCr || e.rc)
  legal : execState e ≠ .doIllegal → r.illegal = false
  xer : execState e ≠ .doIllegal → r.writingXer = true → isIntegerOp e = true ∧ e.oe = true
  silent : silent (execState e) = true → r.writingFpr = false
  feMode : outputsSeen r = false → r.i.feMode = (e.feMode != 0)
  shown : outputsSeen r = true → r.complete = !r.illegal
  doIntr : r.doIntr = true → r.illegal = false → (e.feMode != 0) = true

section Cycle

variable {r : Reg} {e i : Execute1ToFPU} {t : BitVec 19} {m : MultiplyOutput}

theorem inside_execState (e : Execute1ToFPU) :
    inside (execState e != .doIllegal) (execState e) = true := by
  simp [inside, execState_ne_idle e]

theorem isArith_of_silent (h : silent (execState e) = true) : isArith e = false := by
  have hall : ∀ b : BitVec 5, silent (arithDecode b) = false := by decide
  by_contra ha
  have hop : e.op = .fpArith := by simpa [isArith] using ha
  unfold execState at h
  rw [hop] at h
  exact absurd (h.symm.trans (hall _)) Bool.true_eq_false.mp

theorem isArith_of_special (h : (isNanInf e || isZeroDen e) = true) : isArith e = true := by
  unfold isNanInf isZeroDen at h
  rw [← Bool.and_or_distrib_left, Bool.and_eq_true] at h
  exact h.1

theorem ends_of_idle {c : Ctl} (hs : r.state = .idle) : ends r c = false := by simp [ends, hs]

/-- An idle unit that takes an instruction. -/
theorem Ready.taken (hr : Ready r) (hv : i.valid = true) (hstall : i.stall = false) :
    Taken i (rin r i t m) := by
  have hs := hr.state
  have hstate : (rin r i t m).state = if isNanInf i || isZeroDen i then .doSpecial
      else execState i := by
    rw [state_rin, ends_of_idle hs, states_idle m.valid hs, if_neg Bool.false_ne_true, if_pos hv]
  have hexec : (rin r i t m).execState = execState i := if_pos (by simp [accepts, hs, hv])
  refine ⟨⟨r.fpscr, if_pos hv⟩, hexec, fun hd => ?_, fun hcyc => ?_,
    ?_, fun hlegal => ?_, fun hsil => ?_⟩
  · rw [outputsSeen_rin, hstall]
    exact (Bool.and_true _).trans hd
  · exact ((Bool.and_eq_true _ _).mp hcyc).2
  · rw [hstate]
    exact inside_ite rfl (inside_execState i)
  · cases hop : isIntegerOp i with
    | true => exact Or.inl hop
    | false =>
        exact Or.inr (hexec ▸ (floats_of_accepts hs hv hop hlegal Machine.cold.multiply).1.kind)
  -- only arithmetic instructions start in `DO_SPECIAL`
  · have hplain : (isNanInf i || isZeroDen i) = false := by
      by_contra hspecial
      have harith := isArith_of_special ((Bool.not_eq_false _).mp hspecial)
      rw [isArith_of_silent hsil] at harith
      cases harith
    rw [hstate, hplain]
    exact hsil

/-- The control of an instruction in progress. -/
structure Controls (e : Execute1ToFPU) (r : Reg) (c : Ctl) : Prop where
  inside : inside (execState e != .doIllegal) c.state = true
  fits : execState e ≠ .doIllegal → Fits e c.state
  silent : silent (execState e) = true → silent c.state = true ∧ c.writingFpr = false ∧
    arithDone r c = false
  crOp : c.crOp = .intres → c.instrDone = true ∧ (execState e ≠ .doIllegal → isIntegerOp e = true)
  illegal : execState e ≠ .doIllegal → c.illegal = false

/-- The special cases leave the state alone. -/
theorem ctl_state (done : Bool) : (ctl r i done).state = (states r i done (base r i)).state ∧
    (ctl r i done).crOp = (states r i done (base r i)).crOp ∧
    (ctl r i done).instrDone = (states r i done (base r i)).instrDone ∧
    (ctl r i done).illegal = (states r i done (base r i)).illegal := by
  unfold ctl specialCases
  extract_lets sc c₁
  split_ifs <;> exact ⟨rfl, rfl, rfl, rfl⟩

theorem Taken.controls (h : Taken e r) (horder : Orderly r) (done : Bool) :
    Controls e r (ctl r i done) := by
  have htells : Tells (Fpu.execState e != .doIllegal) r (states r i done (base r i)) :=
    states_tells rfl rfl rfl h.inside (h.execState ▸ inside_execState e)
  obtain ⟨hstate, hcr, hdone, hill⟩ := ctl_state (r := r) (i := i) done
  refine ⟨hstate ▸ htells.state, fun hlegal => ?_, fun hsil => ?_, fun hc => ?_, fun hlegal => ?_⟩
  · rw [hstate]
    rcases h.fits hlegal with hop | ⟨hcomp, hexec⟩ | hbrief
    · exact Or.inl hop
    · exact Or.inr (Or.inl ⟨(states_keeps rfl hcomp (h.execState ▸ hexec)).state, hexec⟩)
    · exact Or.inr (Or.inr (brief_states rfl hbrief))
  · have hhush : Hushes (base r i) (states r i done (base r i)) := states_hushes rfl (h.silent hsil)
    have hcyc : r.cycle1Ar = false := by
      by_contra hcyc
      have harith := h.cycle1Ar (by simpa using hcyc)
      rw [isArith_of_silent hsil] at harith
      cases harith
    have hquiet : (base r i).writingFpr = false := by
      by_contra hw
      have hb := (horder.base i).writingFpr (by simpa using hw)
      exact absurd (hb.symm.trans (Computing.seen_of h.seen)) Bool.true_eq_false.mp
    rw [ctl_of_not_cycle1Ar hcyc]
    refine ⟨hhush.state, hhush.writingFpr.trans hquiet, ?_⟩
    unfold arithDone
    rw [hhush.arithDone, hhush.rclsOp]
    rfl
  · rw [hcr] at hc
    obtain ⟨hst, hd⟩ := htells.crOp.resolve_left (fun hno => hno hc)
    refine ⟨hdone.trans hd, fun hlegal => ?_⟩
    have hfits := h.fits hlegal
    unfold Fits at hfits
    rw [hst] at hfits
    exact hfits.resolve_right (by rintro (⟨hcomp, -⟩ | hbrief) <;> contradiction)
  · rw [hill]
    refine htells.illegal.resolve_right fun hst => ?_
    have hin := h.inside
    rw [hst] at hin
    simp [Fpu.inside, hlegal] at hin

theorem shown_rin :
    outputsSeen (rin r i t m) = true → (rin r i t m).complete = !(rin r i t m).illegal := by
  rw [outputsSeen_rin]
  intro h
  change (nextInstrDone r _ && !i.stall && !nextIllegal r _) = !nextIllegal r _
  rw [h, Bool.true_and]

theorem doIntr_rin (hd : (rin r i t m).doIntr = true) (hill : (rin r i t m).illegal = false) :
    r.i.feMode = true := by
  change (nextInstrDone r _ && !i.stall &&
      ((nextFpscr r _).getLsbD fpscrFex && r.i.feMode || nextIllegal r _)) =
    true at hd
  change nextIllegal r _ = false at hill
  rw [hill, Bool.or_false, Bool.and_eq_true, Bool.and_eq_true (BitVec.getLsbD _ _)] at hd
  exact hd.2.2

/-- The last edge of an instruction. -/
theorem Taken.due (h : Taken e r) (horder : Orderly r)
    (hxer : r.writingXer = true → r.instrDone = true)
    (hv : i.valid = false) (hends : ends r (ctl r i m.valid) = true) : Due e (rin r i t m) := by
  obtain ⟨f, hi⟩ := h.captured
  have hc := h.controls (i := i) horder m.valid
  have hdone : nextInstrDone r (ctl r i m.valid) = true := by
    unfold ends at hends
    exact ((Bool.and_eq_true _ _).mp hends).1
  have hfe : r.i.feMode = (e.feMode != 0) := congrArg (·.feMode) hi
  have hnew : (r.writingXer && !outputsSeen r) = false := Computing.seen_of fun hw =>
    h.seen (hxer hw)
  refine ⟨hdone, ?_, ?_, ?_, ?_, fun hlegal => ?_, fun hlegal hx => ?_, fun hsil => ?_, fun _ => ?_,
    shown_rin, fun hd hill => hfe ▸ doIntr_rin hd hill⟩
  · exact (if_pos hends).trans (congrArg (·.instrTag) hi)
  · exact (if_pos hends).trans (congrArg (·.destFpr) hi)
  · refine (if_pos hends).trans ?_
    rw [hi]
    rfl
  · refine (if_pos hends).trans ?_
    rw [hi]
    rfl
  · exact (if_pos hends).trans (hc.illegal hlegal)
  · change (decide ((ctl r i m.valid).crOp = .intres) && r.i.oe || r.writingXer && !outputsSeen r) =
        true at hx
    rw [hnew, Bool.or_false, Bool.and_eq_true, decide_eq_true_eq] at hx
    refine ⟨(hc.crOp hx.1).2 hlegal, ?_⟩
    rw [hi] at hx
    exact hx.2
  · obtain ⟨-, hw, had⟩ := hc.silent hsil
    change ((ctl r i m.valid).writingFpr || delivers r (ctl r i m.valid)) = false
    unfold delivers
    rw [hw, had]
    rfl
  · refine Eq.trans ?_ hfe
    change (if i.valid then Fpu.captured i r.fpscr else r.i).feMode = r.i.feMode
    rw [hv]
    rfl

/-- An edge with which the instruction goes on. -/
theorem Taken.next (h : Taken e r) (horder : Orderly r) (hv : i.valid = false)
    (hends : ends r (ctl r i m.valid) = false) :
    Taken e (rin r i t m) ∧ (rin r i t m).instrDone = false := by
  have hidle : r.state ≠ .idle := by
    intro hs
    have hin := h.inside
    rw [hs] at hin
    cases hin
  have hdone : nextInstrDone r (ctl r i m.valid) = false := by simpa [ends, hidle] using hends
  have hc := h.controls (i := i) horder m.valid
  have hstate : (rin r i t m).state = (ctl r i m.valid).state := by
    rw [state_rin, hends, if_neg Bool.false_ne_true]
  have hno : ¬i.valid = true := by rw [hv]; exact Bool.false_ne_true
  refine ⟨⟨?_, ?_, fun hd => absurd (hdone.symm.trans hd) Bool.false_ne_true, fun hcyc => ?_,
    hstate ▸ hc.inside, fun hlegal => hstate ▸ hc.fits hlegal,
    fun hsil => hstate ▸ (hc.silent hsil).1⟩, hdone⟩
  · obtain ⟨f, hi⟩ := h.captured
    exact ⟨f, (if_neg hno).trans hi⟩
  · refine (if_neg ?_).trans h.execState
    unfold accepts
    rw [hv, Bool.and_false]
    exact Bool.false_ne_true
  · exact absurd ((Bool.and_eq_true _ _).mp hcyc).1 hno

/-- An outcome that has to wait. -/
theorem Due.waits (h : Due e r) (hr : Ready r) (hunseen : outputsSeen r = false)
    (hstall : i.valid = true → i.stall = false) : Due e (rin r i t m) := by
  have hends : ¬ends r (ctl r i m.valid) = true := by
    rw [ends_of_idle hr.state]; exact Bool.false_ne_true
  have hctl := ctl_idle (e := i) hr m.valid
  have hquiet : arithDone r (ctl r i m.valid) = false := by
    rw [hctl]
    rfl
  have hkeep : ∀ b : Bool, (b && !outputsSeen r) = b := fun b => by
    rw [hunseen]; exact Bool.and_true b
  have hdone : nextInstrDone r (ctl r i m.valid) = true := by
    unfold nextInstrDone
    rw [hquiet, hctl]
    change (r.instrDone && !outputsSeen r || false) = true
    rw [hkeep, h.instrDone]
    rfl
  have hill : (rin r i t m).illegal = r.illegal := by
    refine (if_neg hends).trans ?_
    rw [hctl]
    exact hkeep _
  have hopen : outputsSeen (rin r i t m) = false → ¬i.valid = true := by
    intro hu hv
    rw [outputsSeen_rin, hdone, hstall hv] at hu
    cases hu
  refine ⟨hdone, (if_neg hends).trans h.tag, (if_neg hends).trans h.writeReg,
    (if_neg hends).trans h.crMask, ?_, fun hlegal => hill.trans (h.legal hlegal), fun hlegal hx =>
      h.xer hlegal ?_, fun hsil => ?_, fun hu => ?_,
    shown_rin, fun hd hno => ?_⟩
  · exact (if_neg hends).trans ((hkeep _).trans h.writingCr)
  · change (decide ((ctl r i m.valid).crOp = .intres) && r.i.oe || r.writingXer && !outputsSeen r) =
        true at hx
    rw [hctl, hkeep] at hx
    exact hx
  · change ((ctl r i m.valid).writingFpr || delivers r (ctl r i m.valid)) = false
    unfold delivers
    rw [hquiet, hctl]
    change (r.writingFpr && !outputsSeen r || false) = false
    rw [hkeep, h.silent hsil]
    rfl
  · refine Eq.trans ?_ (h.feMode hunseen)
    exact congrArg Captured.feMode (if_neg (hopen hu))
  · rw [← h.feMode hunseen]
    exact doIntr_rin hd hno

end Cycle

/-! ## The instructions that are owed an outcome -/

/-- The instructions in the unit, the oldest first. -/
inductive Queue (r : Reg) : List Execute1ToFPU → Prop where
  | empty (hr : Ready r) (hopen : r.instrDone = false) : Queue r []
  | due {e : Execute1ToFPU} (hr : Ready r) (hd : Due e r) : Queue r [e]
  | taken {e : Execute1ToFPU} (ht : Taken e r) (hopen : r.instrDone = false) : Queue r [e]
  /-- The next instruction has come in with the edge that shows the outcome of the one before. -/
  | both {d e : Execute1ToFPU} (hd : Due d r) (ht : Taken e r) : Queue r [d, e]

/-- The unit owes an outcome to the instructions. -/
structure Owing (r : Reg) (es : List Execute1ToFPU) : Prop where
  orderly : Orderly r
  xer : r.writingXer = true → r.instrDone = true
  seen : outputsSeen r = true → r.instrDone = true
  queue : Queue r es

/-- What the unit shows is the outcome of the instruction. -/
structure Answers (e : Execute1ToFPU) (w : FPUToWriteback) : Prop where
  tag : w.instrTag = e.itag
  writeReg : w.writeReg = e.frt
  writeCrMask : w.writeCrMask = numToFxm (crField e)
  writeCrEnable : w.writeCrEnable = ((e.outCr || e.rc) && w.valid)
  valid : execState e ≠ .doIllegal → w.valid = true
  writeXerc : execState e ≠ .doIllegal → w.writeXerc = true → isIntegerOp e = true ∧ e.oe = true
  writeEnable : silent (execState e) = true → w.writeEnable = false
  interrupt : w.valid = true → w.interrupt = true → e.feMode ≠ 0

section Step

variable {r : Reg} {e i : Execute1ToFPU} {t : BitVec 19} {m : MultiplyOutput}
    {es : List Execute1ToFPU}

theorem Due.answers (h : Due e r) (hseen : outputsSeen r = true) : Answers e (wOut r) := by
  have hshown := h.shown hseen
  refine ⟨h.tag, h.writeReg, h.crMask, congrArg (· && r.complete) h.writingCr, fun hlegal => ?_,
    fun hlegal hx => ?_, fun hsil => ?_, fun hv hint => ?_⟩
  · exact hshown.trans (by rw [h.legal hlegal]; rfl)
  · exact h.xer hlegal ((Bool.and_eq_true _ _).mp hx).1
  · exact congrArg (· && r.complete) (h.silent hsil)
  · have hill : r.illegal = false := by
      change r.complete = true at hv
      rw [hshown] at hv
      simpa using hv
    exact bne_iff_ne.mp (h.doIntr hint hill)

theorem Ready.instrDone_rin (hr : Ready r) :
    (rin r i t m).instrDone = (r.instrDone && !outputsSeen r) := by
  change nextInstrDone r (ctl r i m.valid) = _
  rw [ctl_idle hr]
  exact Bool.or_false _

theorem Ready.rin (hr : Ready r) (hv : i.valid = false) : Ready (rin r i t m) := by
  refine ⟨?_, ?_⟩
  · rw [state_rin, ends_of_idle hr.state, states_idle m.valid hr.state, hv]
    rfl
  · change (i.valid && isArith i) = false
    rw [hv]
    rfl

theorem Taken.not_idle (h : Taken e r) : r.state ≠ .idle := by
  intro hs
  have hin := h.inside
  rw [hs] at hin
  cases hin

theorem Taken.queue (h : Taken e r) (horder : Orderly r)
    (hxer : r.writingXer = true → r.instrDone = true)
    (hv : i.valid = false) : Queue (Fpu.rin r i t m) [e] := by
  cases hends : ends r (ctl r i m.valid) with
  | true =>
      refine Queue.due ⟨(state_rin ..).trans (if_pos hends), ?_⟩ (h.due horder hxer hv hends)
      change (i.valid && isArith i) = false
      rw [hv]
      rfl
  | false =>
      obtain ⟨ht, hopen⟩ := h.next (t := t) (m := m) horder hv hends
      exact Queue.taken ht hopen

/-- A rising edge takes the outcome that is shown from the queue, and puts an instruction that comes
in at its end. -/
theorem Queue.rin (hq : Queue r es) (horder : Orderly r)
    (hxer : r.writingXer = true → r.instrDone = true)
    (hseen : outputsSeen r = true → r.instrDone = true)
    (hfree : i.valid = true → r.state = .idle ∧ i.stall = false) :
    Queue (Fpu.rin r i t m)
      ((if outputsSeen r then es.tail else es) ++ if i.valid then [i] else []) := by
  cases hq with
  | empty hr hopen =>
      have hdone : (Fpu.rin r i t m).instrDone = false := by rw [hr.instrDone_rin, hopen]; rfl
      rw [List.tail_nil, ite_self, List.nil_append]
      split_ifs with hv
      · exact Queue.taken (hr.taken hv (hfree hv).2) hdone
      · exact Queue.empty (hr.rin (by simpa using hv)) hdone
  | due hr hd =>
      have hdone := hr.instrDone_rin (i := i) (t := t) (m := m)
      split_ifs with hshown hv hv
      · rw [hshown, Bool.not_true, Bool.and_false] at hdone
        exact Queue.taken (hr.taken hv (hfree hv).2) hdone
      · rw [hshown, Bool.not_true, Bool.and_false] at hdone
        exact Queue.empty (hr.rin (by simpa using hv)) hdone
      -- `e_in.stall` is low with an instruction, so that the outcome is shown with its second cycle
      · exact Queue.both (hd.waits hr (by simpa using hshown) fun _ => (hfree hv).2)
          (hr.taken hv (hfree hv).2)
      · exact Queue.due (hr.rin (by simpa using hv))
          (hd.waits hr (by simpa using hshown) fun hval => absurd hval hv)
  | taken ht hopen =>
      have hv : ¬i.valid = true := fun hv => ht.not_idle (hfree hv).1
      have hunseen : ¬outputsSeen r = true := by
        intro hs
        rw [hseen hs] at hopen
        cases hopen
      rw [if_neg hunseen, if_neg hv]
      exact ht.queue horder hxer (by simpa using hv)
  | both hd ht =>
      have hv : ¬i.valid = true := fun hv => ht.not_idle (hfree hv).1
      rw [if_pos (ht.seen hd.instrDone), if_neg hv]
      exact ht.queue horder hxer (by simpa using hv)

theorem Owing.rin (h : Owing r es) (hfree : i.valid = true → r.state = .idle ∧ i.stall = false) :
    Owing (Fpu.rin r i t m)
      ((if outputsSeen r then es.tail else es) ++ if i.valid then [i] else []) := by
  refine ⟨h.orderly.rin _ _ _, fun hx => ?_, fun hs => ?_, h.queue.rin h.orderly h.xer h.seen hfree⟩
  · change (decide ((ctl r i m.valid).crOp = .intres) && r.i.oe || r.writingXer && !outputsSeen r) =
        true at hx
    have hready : Ready r → (Fpu.rin r i t m).instrDone = true := by
      intro hr
      rw [ctl_idle hr] at hx
      change (r.writingXer && !outputsSeen r) = true at hx
      rw [Bool.and_eq_true] at hx
      rw [hr.instrDone_rin, h.xer hx.1, hx.2]
      rfl
    have htaken : ∀ {e}, Taken e r → (Fpu.rin r i t m).instrDone = true := by
      intro e ht
      have hnew : (r.writingXer && !outputsSeen r) = false := Computing.seen_of fun hw =>
        ht.seen (h.xer hw)
      rw [hnew, Bool.or_false, Bool.and_eq_true, decide_eq_true_eq] at hx
      change ((ctl r i m.valid).instrDone || arithDone r _) = true
      rw [((ht.controls h.orderly m.valid).crOp hx.1).1, Bool.true_or]
    cases h.queue with
    | empty hr _ => exact hready hr
    | due hr _ => exact hready hr
    | taken ht _ => exact htaken ht
    | both _ ht => exact htaken ht
  · rw [outputsSeen_rin] at hs
    exact ((Bool.and_eq_true _ _).mp hs).1

end Step

/-! ## Runs -/

section Runs

variable (lut : BitVec 10 → BitVec 18) (u : Machine) (ins : Nat → Inputs)

/-- The instructions that are owed an outcome before an edge: those that came in, without those
whose outcome was shown, and without those that a reset or a flush took away. -/
def owes : Nat → List Execute1ToFPU
  | 0 => []
  | n + 1 =>
    if (ins n).rst || (ins n).flushIn then []
    else
      (if outputsSeen (regs lut u ins n) then (owes n).tail else owes n) ++
        if (ins n).eIn.valid then [(ins n).eIn] else []

theorem owes_succ (n : Nat) : owes lut u ins (n + 1) =
    if (ins n).rst || (ins n).flushIn then []
    else
      (if outputsSeen (regs lut u ins n) then (owes lut u ins n).tail else owes lut u ins n) ++
        if (ins n).eIn.valid then [(ins n).eIn] else [] := rfl

/-- No reset or flush comes in the second cycle of an arithmetic instruction. -/
def Undivided : Prop :=
  ∀ n, ((ins (n + 1)).rst || (ins (n + 1)).flushIn) = true → (ins n).eIn.valid = true →
    isArith (ins n).eIn = false

variable {lut u ins}

variable (lut u) in
theorem regs_succ_flushed {n : Nat} (h : ((ins n).rst || (ins n).flushIn) = true) :
    regs lut u ins (n + 1) = flushed (regs lut u ins n) (ins n).rst := by
  unfold regs
  rw [Clocked.trace, Machine.step]
  exact if_pos h

variable (lut) in
theorem cycle1Ar_flushed (hcyc : u.reg.cycle1Ar = false) (hwhole : Undivided ins) {n : Nat}
    (h : ((ins n).rst || (ins n).flushIn) = true) : (regs lut u ins (n + 1)).cycle1Ar = false := by
  induction n with
  | zero =>
      rw [regs_succ_flushed lut u h]
      exact hcyc
  | succ n ih =>
      rw [regs_succ_flushed lut u h]
      change (regs lut u ins (n + 1)).cycle1Ar = false
      cases hlast : (ins n).rst || (ins n).flushIn with
      | true => exact ih hlast
      | false =>
          rw [Bool.or_eq_false_iff] at hlast
          obtain ⟨est, mul, hnext⟩ := regs_succ_of lut u hlast.1 hlast.2
          rw [hnext]
          change ((ins n).eIn.valid && isArith (ins n).eIn) = false
          cases hv : (ins n).eIn.valid with
          | false => rfl
          | true => exact hwhole n h hv

theorem owing_trace (hfed : Fed lut u ins) (hrst : (ins 0).rst = true)
    (hcyc : u.reg.cycle1Ar = false)
    (hwhole : Undivided ins) (n : Nat) :
    Owing (regs lut u ins (n + 1)) (owes lut u ins (n + 1)) := by
  have hempty : ∀ n, ((ins n).rst || (ins n).flushIn) = true →
      Owing (regs lut u ins (n + 1)) (owes lut u ins (n + 1)) := by
    intro n h
    have hready := cycle1Ar_flushed lut hcyc hwhole h
    rw [owes_succ, if_pos h]
    rw [regs_succ_flushed lut u h] at hready ⊢
    have hno : ∀ {b : Bool}, false = true → b = true := fun hf => absurd hf Bool.false_ne_true
    exact ⟨⟨hno, hno⟩, hno, hno, Queue.empty ⟨rfl, hready⟩ rfl⟩
  induction n with
  | zero => exact hempty 0 (by rw [hrst, Bool.true_or])
  | succ n ih =>
      cases hdist : (ins (n + 1)).rst || (ins (n + 1)).flushIn with
      | true => exact hempty (n + 1) hdist
      | false =>
          rw [owes_succ, hdist, if_neg Bool.false_ne_true]
          rw [Bool.or_eq_false_iff] at hdist
          obtain ⟨est, mul, hnext⟩ := regs_succ_of lut u hdist.1 hdist.2
          rw [hnext]
          refine ih.rin fun hv => ⟨?_, (hfed.valid _ hv).2⟩
          by_contra hbusy
          have := (kept_trace lut u hrst n).busy hbusy
          rw [(hfed.valid _ hv).1] at this
          cases this

/-- An outcome that waits is shown with the first edge on which the write stage is not stalled. -/
theorem due_shown {e : Execute1ToFPU} (hfed : Fed lut u ins) {j : Nat}
    (hno : ∀ k, j ≤ k → (ins k).rst = false ∧ (ins k).flushIn = false)
    (hd : Due e (regs lut u ins j))
    (hr : Ready (regs lut u ins j)) {l : Nat} (hl : j ≤ l) (hstall : (ins l).eIn.stall = false) :
    ∃ k, j ≤ k ∧ outputsSeen (regs lut u ins k) = true ∧ Due e (regs lut u ins k) := by
  -- on the edges that are left until the write stage is free
  induction hlen : l - j generalizing j with
  | zero =>
      obtain rfl : j = l := by omega
      cases hseen : outputsSeen (regs lut u ins j) with
      | true => exact ⟨j, le_rfl, hseen, hd⟩
      | false =>
          obtain ⟨est, mul, hnext⟩ := regs_succ_of lut u (hno j le_rfl).1 (hno j le_rfl).2
          have hd' := hd.waits (i := (ins j).eIn) (t := est) (m := mul) hr hseen fun _ => hstall
          refine ⟨j + 1, Nat.le_succ j, ?_, hnext ▸ hd'⟩
          rw [hnext, outputsSeen_rin, hstall]
          exact (Bool.and_true _).trans hd'.instrDone
  | succ d ih =>
      cases hseen : outputsSeen (regs lut u ins j) with
      | true => exact ⟨j, le_rfl, hseen, hd⟩
      | false =>
          obtain ⟨est, mul, hnext⟩ := regs_succ_of lut u (hno j le_rfl).1 (hno j le_rfl).2
          have hd' := hd.waits (i := (ins j).eIn) (t := est) (m := mul) hr hseen fun hv =>
            (hfed.valid j hv).2
          cases hv : (ins j).eIn.valid with
          | true =>
              refine ⟨j + 1, Nat.le_succ j, ?_, hnext ▸ hd'⟩
              rw [hnext, outputsSeen_rin, (hfed.valid j hv).2]
              exact (Bool.and_true _).trans hd'.instrDone
          | false =>
              obtain ⟨k, hk, hshown⟩ :=
                ih (fun k hk => hno k (by omega)) (hnext ▸ hd') (hnext ▸ hr.rin hv)
                (by omega) (by omega)
              exact ⟨k, by omega, hshown⟩

/-- The instruction is in progress until its end. -/
theorem Executes.taken {n m : Nat} (he : Executes lut u ins n m) (hfed : Fed lut u ins)
    (hrst : (ins 0).rst = true) (horder : ∀ k, Orderly (regs lut u ins (k + 1))) {k : Nat}
    (hk : n + 1 ≤ k) (hkm : k < m) : Taken (ins n).eIn (regs lut u ins k) := by
  induction k, hk using Nat.le_induction with
  | base =>
      obtain ⟨hno, hno'⟩ := he.undisturbed n le_rfl he.lt
      obtain ⟨est, mul, hnext⟩ := regs_succ_of lut u hno hno'
      obtain ⟨l, rfl⟩ : ∃ l, n = l + 1 := by
        cases n with
        | zero => simp [hrst] at hno
        | succ l => exact ⟨l, rfl⟩
      rw [hnext]
      exact (hfed.ready hrst he.start he.valid).taken he.valid (hfed.valid _ he.valid).2
  | succ k hk ih =>
      obtain ⟨est, mul, hnext, hv⟩ := he.cycle hfed hrst hk (by omega)
      obtain ⟨l, rfl⟩ : ∃ l, k = l + 1 := ⟨k - 1, by omega⟩
      have hgo := he.state (l + 1 + 1) (by omega) hkm
      rw [hnext, state_rin] at hgo
      rw [hnext]
      exact ((ih (by omega)).next (horder l) hv (by by_contra hends; simp [hends] at hgo)).1

end Runs

/-- From a reset on, the unit holds at most two instructions, and whatever it shows to writeback is
the outcome of the oldest of them. -/
theorem outcomes_in_order (lut : BitVec 10 → BitVec 18) (u : Machine) (ins : Nat → Inputs)
    (hfed : Fed lut u ins) (hrst : (ins 0).rst = true) (hcyc : u.reg.cycle1Ar = false)
    (hwhole : Undivided ins) (n : Nat) :
    (owes lut u ins (n + 1)).length ≤ 2 ∧
      ((wOut (regs lut u ins (n + 1))).valid = true ∨
        (wOut (regs lut u ins (n + 1))).interrupt = true →
        ∃ e es, owes lut u ins (n + 1) = e :: es ∧ Answers e (wOut (regs lut u ins (n + 1)))) := by
  have h := owing_trace hfed hrst hcyc hwhole n
  have hseen : (wOut (regs lut u ins (n + 1))).valid = true ∨
      (wOut (regs lut u ins (n + 1))).interrupt = true →
      outputsSeen (regs lut u ins (n + 1)) = true := (Bool.or_eq_true _ _).mpr
  generalize owes lut u ins (n + 1) = es at h
  cases h.queue with
  | empty hr hopen =>
      refine ⟨Nat.zero_le 2, fun hw => ?_⟩
      rw [h.seen (hseen hw)] at hopen
      cases hopen
  | due hr hd => exact ⟨Nat.le_succ 1, fun hw => ⟨_, _, rfl, hd.answers (hseen hw)⟩⟩
  | taken ht hopen =>
      refine ⟨Nat.le_succ 1, fun hw => ?_⟩
      rw [h.seen (hseen hw)] at hopen
      cases hopen
  | both hd ht => exact ⟨le_rfl, fun hw => ⟨_, _, rfl, hd.answers (hseen hw)⟩⟩

theorem undivided_afterReset (e : Execute1ToFPU) : Undivided (afterReset e) := by
  intro n h
  simp [afterReset] at h

/-- The outcome of a comparison. -/
theorem outcomes_in_order_fcmpo :
    ∃ e es, owes (fun _ => 0) .cold (afterReset fcmpo) 4 = e :: es ∧
      Answers e (wOut (regs (fun _ => 0) .cold (afterReset fcmpo) 4)) :=
  (outcomes_in_order _ _ _ (fed_afterReset fcmpo rfl) rfl rfl (undivided_afterReset _) 3).2
    (Or.inl (by decide +kernel))

/-- Every instruction that is not an integer division completes, unless a reset or a flush comes or
the write stage is stalled for ever. -/
theorem instruction_answered (lut : BitVec 10 → BitVec 18) (u : Machine) (ins : Nat → Inputs)
    (hfed : Fed lut u ins) (hrst : (ins 0).rst = true) (hcyc : u.reg.cycle1Ar = false)
    (hwhole : Undivided ins) (n : Nat) (hv : (ins n).eIn.valid = true)
    (hop : isIntegerOp (ins n).eIn = false) (hlegal : execState (ins n).eIn ≠ .doIllegal)
    (hno : ∀ k, n ≤ k → (ins k).rst = false ∧ (ins k).flushIn = false)
    (hstall : ∀ k, ∃ l, k ≤ l ∧ (ins l).eIn.stall = false) :
    ∃ k, n < k ∧ (wOut (regs lut u ins k)).valid = true ∧
      Answers (ins n).eIn (wOut (regs lut u ins k)) := by
  have horder : ∀ k, Orderly (regs lut u ins (k + 1)) := fun k =>
    (owing_trace hfed hrst hcyc hwhole k).orderly
  obtain ⟨m, he⟩ := instruction_ends lut u ins hfed hrst n hv hop hlegal hno
  have hlt := he.lt_succ hfed hrst
  obtain ⟨l, rfl⟩ : ∃ l, m = l + 1 + 1 := ⟨m - 2, by omega⟩
  have ht := he.taken hfed hrst horder (k := l + 1) (by omega) (by omega)
  obtain ⟨est, mul, hnext, hquiet⟩ := he.cycle hfed hrst (k := l + 1) (by omega) (by omega)
  have hends : ends (regs lut u ins (l + 1))
      (ctl (regs lut u ins (l + 1)) (ins (l + 1)).eIn mul.valid) = true := by
    by_contra hgo
    have hdone := he.done
    rw [hnext, state_rin, if_neg hgo] at hdone
    have hin := (ht.controls (i := (ins (l + 1)).eIn) (horder l) mul.valid).inside
    rw [hdone] at hin
    cases hin
  have hxer := (owing_trace hfed hrst hcyc hwhole l).xer
  have hd : Due (ins n).eIn (regs lut u ins (l + 2)) := hnext ▸ ht.due (horder l) hxer hquiet hends
  have hr : Ready (regs lut u ins (l + 2)) := by
    refine ⟨he.done, ?_⟩
    rw [hnext]
    change ((ins (l + 1)).eIn.valid && _) = false
    rw [hquiet]
    rfl
  obtain ⟨j, hj, hstall'⟩ := hstall (l + 2)
  obtain ⟨k, hk, hseen, hd'⟩ := due_shown hfed (fun k hk => hno k (by omega)) hd hr hj hstall'
  exact ⟨k, by omega, (hd'.answers hseen).valid hlegal, hd'.answers hseen⟩

/-- A comparison that comes in two edges after a reset completes. -/
theorem instruction_answered_fcmpo : ∃ k, 2 < k ∧
    (wOut (regs (fun _ => 0) .cold (afterReset fcmpo) k)).valid = true ∧
      Answers fcmpo (wOut (regs (fun _ => 0) .cold (afterReset fcmpo) k)) := by
  refine instruction_answered _ _ _ (fed_afterReset fcmpo rfl) rfl rfl
    (undivided_afterReset _) 2 rfl rfl
    (by decide) (fun k hk => ?_) fun k => ⟨k + 3, Nat.le_add_right k 3, rfl⟩
  have hne : k ≠ 0 := by omega
  exact ⟨by simp [afterReset, hne], rfl⟩

/-! ## A flush in the second cycle -/

/-- An idle unit with an arithmetic instruction in its second cycle, as `cycle_1_ar` has it. -/
theorem instrDone_of_stale {r : Reg} {i : Execute1ToFPU} {done : Bool} (hs : r.state = .idle)
    (hcyc : r.cycle1Ar = true) :
    nextInstrDone r (ctl r i done) = ((base r i).instrDone || (scinfo r).immedResult) := by
  have hidle : states r i done (base r i) = idle (base r i) i.valid (isNanInf i) (isZeroDen i)
      (execState i) := by
    unfold states
    rw [hs]
  unfold nextInstrDone arithDone
  cases him : (scinfo r).immedResult with
  | true =>
      have hdone : (ctl r i done).arithDone = true := (specialCases_overrides hcyc).arithDone him
      rw [hdone, Bool.true_or, Bool.or_true, Bool.or_true]
  | false =>
      have hopen : (ctl r i done).arithDone = false ∧ (ctl r i done).rclsOp = .nop ∧
          (ctl r i done).instrDone = (base r i).instrDone := by
        unfold ctl specialCases
        rw [if_pos hcyc]
        dsimp only
        rw [him, if_neg Bool.false_ne_true, hidle]
        exact ⟨rfl, rfl, rfl⟩
      rw [hopen.1, hopen.2.1, hopen.2.2]
      rfl

/-- A reset or a flush does not clear `cycle_1_ar`.  If it comes in the second cycle of an
arithmetic instruction whose result is immediate, the unit shows a result that nobody asked for: it
completes no instruction, but it is for register 0. -/
theorem stale_result (lut : BitVec 10 → BitVec 18) (u : Machine) (ins : Nat → Inputs)
    (hfed : Fed lut u ins)
    (n : Nat) (hv : (ins n).eIn.valid = true) (harith : isArith (ins n).eIn = true)
    (hno : (ins n).rst = false ∧ (ins n).flushIn = false)
    (hflush : ((ins (n + 1)).rst || (ins (n + 1)).flushIn) = true)
    (hno' : (ins (n + 2)).rst = false ∧ (ins (n + 2)).flushIn = false) :
    owes lut u ins (n + 3) = [] ∧
      (wOut (regs lut u ins (n + 3))).valid =
        ((scinfo (regs lut u ins (n + 2))).immedResult && !(ins (n + 2)).eIn.stall) ∧
      (wOut (regs lut u ins (n + 3))).instrTag.valid = false ∧
        (wOut (regs lut u ins (n + 3))).writeReg = 0 := by
  obtain ⟨est, mul, hnext⟩ := regs_succ_of lut u hno'.1 hno'.2
  obtain ⟨est', mul', hfirst⟩ := regs_succ_of lut u hno.1 hno.2
  -- after a flush nothing comes in
  have hquiet : ¬(ins (n + 2)).eIn.valid = true := by
    intro hval
    obtain ⟨hrst, hflush'⟩ := hfed.after (n + 1) hval
    rw [hrst, hflush'] at hflush
    cases hflush
  have hcyc : (regs lut u ins (n + 1)).cycle1Ar = true := by
    rw [hfirst]
    change ((ins n).eIn.valid && isArith (ins n).eIn) = true
    rw [hv, harith]
    rfl
  have htaken : owes lut u ins (n + 3) = [] := by
    have hbefore : owes lut u ins (n + 2) = [] := if_pos hflush
    rw [owes_succ, hbefore, hno'.1, hno'.2, List.tail_nil, ite_self, if_neg hquiet]
    rfl
  have hlast := regs_succ_flushed lut u hflush
  generalize regs lut u ins (n + 2) = r at hnext hlast ⊢
  generalize (ins (n + 2)).eIn = i at hnext ⊢
  have hs : r.state = .idle := by
    rw [hlast]
    rfl
  have hstale : r.cycle1Ar = true := by
    rw [hlast]
    exact hcyc
  have hends : ¬ends r (ctl r i mul.valid) = true := by
    rw [ends_of_idle hs]
    exact Bool.false_ne_true
  have hbase : (base r i).instrDone = false ∧ (base r i).illegalReg = false := by
    rw [hlast]
    exact ⟨rfl, rfl⟩
  have hdone : nextInstrDone r (ctl r i mul.valid) = (scinfo r).immedResult := by
    rw [instrDone_of_stale hs hstale, hbase.1, Bool.false_or]
  have hill : nextIllegal r (ctl r i mul.valid) = false := by
    refine (if_neg hends).trans ?_
    unfold ctl states
    rw [(specialCases_overrides hstale).illegalReg, hs]
    exact hbase.2
  rw [hnext]
  refine ⟨htaken, ?_, ?_, ?_⟩
  · change (nextInstrDone r _ && !i.stall && !nextIllegal r _) = _
    rw [hdone, hill, Bool.not_false, Bool.and_true]
  · change (if ends r _ = true then r.i.instrTag else r.completeTag).valid = false
    rw [if_neg hends, hlast]
    rfl
  · change (if ends r _ = true then r.i.destFpr else r.writeReg) = 0
    rw [if_neg hends, hlast]
    rfl

/-- A reset, an instruction two edges later, and a flush in its second cycle. -/
def flushedAfter (e : Execute1ToFPU) (n : Nat) : Inputs :=
  { afterReset e n with flushIn := decide (n = 3) }

theorem fed_flushedAfter (e : Execute1ToFPU) (hstall : e.stall = false) :
    Fed (fun _ => 0) .cold (flushedAfter e) := by
  have hvalid : ∀ n, (flushedAfter e n).eIn.valid = true → n = 2 := by
    intro n hv
    by_contra hn
    simp [flushedAfter, afterReset, hn, Execute1ToFPU.none] at hv
  refine ⟨fun n hv => ?_, fun n hv => ?_⟩
  · obtain rfl := hvalid n hv
    have hbefore : regs (fun _ => 0) .cold (flushedAfter e) 2 =
        regs (fun _ => 0) .cold (flushedAfter .none) 2 := rfl
    exact ⟨by rw [hbefore]; decide +kernel, hstall⟩
  · obtain rfl : n = 1 := by simpa using hvalid _ hv
    exact ⟨rfl, rfl⟩

/-- A rounding of zero that is flushed in its second cycle writes register 0. -/
theorem stale_result_frsp : owes (fun _ => 0) .cold (flushedAfter (frsp 0)) 5 = [] ∧
    (wOut (regs (fun _ => 0) .cold (flushedAfter (frsp 0)) 5)).valid = true ∧
      (wOut (regs (fun _ => 0) .cold (flushedAfter (frsp 0)) 5)).writeEnable = true ∧
        (wOut (regs (fun _ => 0) .cold (flushedAfter (frsp 0)) 5)).writeReg = 0 := by
  obtain ⟨howes, hvalid, -, hreg⟩ := stale_result (fun _ => 0) .cold (flushedAfter (frsp 0))
    (fed_flushedAfter _ rfl) 2 rfl rfl ⟨rfl, rfl⟩ rfl ⟨rfl, rfl⟩
  exact ⟨howes, hvalid.trans (by decide +kernel), by decide +kernel, hreg⟩

end Microwatt.Fpu
