import Microwatt.Fpu.Compute
import Microwatt.Writeback

/-!
# The result of an arithmetic instruction and the exception mode

An arithmetic instruction marks the exceptions that it raises, decides whether it writes its result
from VE and ZE, and ends.  The same run for another MSR[FE0, FE1] differs in `do_intr` only, but
writeback takes that for an interrupt and writes no register.
-/

namespace Microwatt.Fpu

/-! ## A cycle -/

/-- An exception is enabled by a bit that instructions of this kind do not change. -/
theorem Exc.enabled_congr {f f' : BitVec 32} (h : ∀ k < 8, f'.getLsbD k = f.getLsbD k) (x : Exc) :
    x.enabled f' = x.enabled f := by
  cases x <;> exact h _ (by decide)

/-- What every cycle of an arithmetic instruction does to the registers. -/
structure Advances (r r' : Reg) : Prop where
  i : r'.i = r.i
  isSet : ∀ x : Exc, x.isSet r'.fpscr = (x.isSet r.fpscr || x.raised r)
  control : ∀ k < 8, r'.fpscr.getLsbD k = r.fpscr.getLsbD k
  invalid : r'.invalid = (r.invalid || Exc.invalid.raised r)

/-- An arithmetic instruction is done; its result waits until it can be taken. -/
structure Ended (writes fe : Bool) (dest : BitVec 6) (r : Reg) : Prop where
  ready : outputsSeen r = false → Ready r
  instrDone : r.instrDone = true
  illegal : r.illegal = false
  writingFpr : r.writingFpr = writes
  writeReg : r.writeReg = dest
  feMode : outputsSeen r = false → r.i.feMode = fe
  seen : outputsSeen r = true → r.complete = true ∧ r.doIntr = (r.fpscr.getLsbD fpscrFex && fe)

/-- An enabled invalid operation or an enabled division by zero keeps the result back. -/
def holdsBack (r : Reg) : Bool :=
  ((r.invalid || Exc.invalid.raised r) && Exc.invalid.enabled r.fpscr) ||
    (Exc.zeroDivide.raised r && Exc.zeroDivide.enabled r.fpscr)

section Steps

variable {r : Reg} {e : Execute1ToFPU} {t : BitVec 19} {m : MultiplyOutput}

theorem Computing.advances (h : Computing r) (hv : e.valid = false) : Advances r (rin r e t m) := by
  have hc : Computed r (ctl r e m.valid) := h.computed m.valid
  have hf : (rin r e t m).fpscr = nextFpscr r (ctl r e m.valid) := rfl
  refine ⟨?_, fun x => ?_, fun k hk => ?_, hc.invalid⟩
  · simp [rin, rinOf, hv]
  · rw [hf, isSet_nextFpscr hc.setFpcc, hc.isSet]
  · rw [hf, control_nextFpscr hc.setFpcc hk, hc.control k hk]

/-- The cycle is the last one of the instruction. -/
theorem Computing.finish (h : Computing r) (ha : arithDone r (ctl r e m.valid) = true)
    (hv : e.valid = false) :
    Ended (!holdsBack r) r.i.feMode r.i.destFpr (rin r e t m) := by
  have hc : Computed r (ctl r e m.valid) := h.computed m.valid
  have hadv : Advances r (rin r e t m) := h.advances hv
  have hdone : nextInstrDone r (ctl r e m.valid) = true := by simp [nextInstrDone, ha]
  have hstate : r.state ≠ .idle := by
    intro hs
    have := h.state
    rw [hs] at this
    cases this
  have hends : ends r (ctl r e m.valid) = true := by simp [ends, hdone, hstate]
  have hill : nextIllegal r (ctl r e m.valid) = false := by simp [nextIllegal, hends, hc.illegal]
  refine ⟨fun _ => ⟨?_, ?_⟩, hdone, hill, ?_, ?_, fun _ => ?_, fun hseen => ?_⟩
  · simp [rin, rinOf, hends]
  · simp [rin, rinOf, hv]
  · show ((ctl r e m.valid).writingFpr || delivers r (ctl r e m.valid)) = _
    rw [hc.writingFpr, Bool.false_or]
    unfold delivers holdsBack
    rw [ha, hc.invalid, hc.zeroDivide, Bool.true_and, Bool.not_or]
    rfl
  · simp [rin, rinOf, hends]
  · rw [hadv.i]
  · have hstall : e.stall = false := by
      by_contra hs
      simp [outputsSeen, rin, rinOf, hs] at hseen
    simp [rin, rinOf, hdone, hill, hstall]

/-- The instruction goes on. -/
theorem Computing.goesOn (h : Computing r) (ha : arithDone r (ctl r e m.valid) = false)
    (hv : e.valid = false) : Computing (rin r e t m) ∧ outputsSeen (rin r e t m) = false := by
  have hc : Computed r (ctl r e m.valid) := h.computed m.valid
  have hdone : nextInstrDone r (ctl r e m.valid) = false := by
    simp [nextInstrDone, hc.instrDone, ha]
  have hends : ends r (ctl r e m.valid) = false := by simp [ends, hdone]
  have hill : (rin r e t m).illegal = false := by
    show nextIllegal r (ctl r e m.valid) = false
    simp [nextIllegal, hends, hc.illegalReg]
  have hwrite : (rin r e t m).writingFpr = false := by
    show ((ctl r e m.valid).writingFpr || delivers r (ctl r e m.valid)) = false
    rw [hc.writingFpr]
    simp [delivers, ha]
  refine ⟨⟨?_, ?_, ?_, ?_, ?_, ?_⟩, ?_⟩
  · simpa [rin, rinOf, hends] using hc.state
  · simpa [rin, rinOf, accepts, hv] using h.execState
  · simp [rin, rinOf, hends, h.busy]
  · simp [rin, rinOf, hdone]
  · simp [hwrite]
  · simp [hill]
  · simp [outputsSeen, rin, rinOf, hdone]

/-- The result waits while the write stage is stalled. -/
theorem Ended.wait {writes fe : Bool} {dest : BitVec 6} (h : Ended writes fe dest r)
    (hseen : outputsSeen r = false) (hv : e.valid = true → e.stall = false) :
    Ended writes fe dest (rin r e t m) ∧
      (∀ x : Exc, x.isSet (rin r e t m).fpscr = x.isSet r.fpscr) ∧
      ∀ k < 8, (rin r e t m).fpscr.getLsbD k = r.fpscr.getLsbD k := by
  have hready := h.ready hseen
  have hctl := ctl_idle (e := e) hready m.valid
  have hbase : (ctl r e m.valid).fpscr = r.fpscr := by
    rw [hctl]
    simp [idle, base, hready.cycle1Ar]
  have hcc : (ctl r e m.valid).setFpcc = false := by
    rw [hctl]
    rfl
  have hends : ends r (ctl r e m.valid) = false := by simp [ends, hready.state]
  have hquiet : arithDone r (ctl r e m.valid) = false := by
    rw [hctl]
    rfl
  have hdone : nextInstrDone r (ctl r e m.valid) = true := by
    rw [hctl]
    simp [nextInstrDone, idle, base, h.instrDone, hseen]
  have hill : nextIllegal r (ctl r e m.valid) = false := by
    rw [hctl]
    simp [nextIllegal, ends, hready.state, idle, base, h.illegal]
  have hf : (rin r e t m).fpscr = nextFpscr r (ctl r e m.valid) := rfl
  have hfree : outputsSeen (rin r e t m) = false → e.valid = false := by
    intro hopen
    by_contra hval
    simp [outputsSeen, rin, rinOf, hdone, hill, hv (by simpa using hval)] at hopen
  refine ⟨⟨fun hopen => ⟨?_, ?_⟩, hdone, hill, ?_, ?_, fun hopen => ?_, fun hopen => ?_⟩,
    fun x => ?_, fun k hk => ?_⟩
  · simp [rin, rinOf, hctl, idle, base, hfree hopen, hready.state]
  · simp [rin, rinOf, hfree hopen]
  · show ((ctl r e m.valid).writingFpr || delivers r (ctl r e m.valid)) = writes
    have hw : (ctl r e m.valid).writingFpr = r.writingFpr := by
      rw [hctl]
      simp [idle, base, hseen]
    rw [hw, h.writingFpr]
    simp [delivers, hquiet]
  · simpa [rin, rinOf, hends] using h.writeReg
  · simpa [rin, rinOf, hfree hopen] using h.feMode hseen
  · have hstall : e.stall = false := by
      by_contra hs
      simp [outputsSeen, rin, rinOf, hs] at hopen
    simp [rin, rinOf, hdone, hill, hstall, h.feMode hseen]
  · rw [hf, isSet_nextFpscr hcc, hbase]
  · rw [hf, control_nextFpscr hcc hk, hbase]

end Steps

/-! ## Acceptance -/

/-- An arithmetic instruction, as execute1 passes it on. -/
structure IsArith (e : Execute1ToFPU) : Prop where
  valid : e.valid = true
  op : e.op = .fpArith
  legal : execState e ≠ .doIllegal

/-- A result or a complaint that is not taken back belongs to an instruction that is done. -/
structure Orderly (r : Reg) : Prop where
  writingFpr : r.writingFpr = true → r.instrDone = true
  illegal : r.illegal = true → r.instrDone = true

/-! ### Every reachable state is orderly -/

/-- A result or a complaint of a cycle comes with the end of an instruction. -/
structure Ordered (c : Ctl) : Prop where
  writingFpr : c.writingFpr = true → c.instrDone = true
  illegal : c.illegal = true → c.instrDone = true
  illegalReg : c.illegalReg = true → c.instrDone = true

theorem Ordered.same {c c' : Ctl} (h : Ordered c) (hw : c'.writingFpr = c.writingFpr)
    (hi : c'.illegal = c.illegal) (hr : c'.illegalReg = c.illegalReg)
    (hd : c'.instrDone = c.instrDone) : Ordered c' := by
  refine ⟨?_, ?_, ?_⟩
  · rw [hw, hd]; exact h.writingFpr
  · rw [hi, hd]; exact h.illegal
  · rw [hr, hd]; exact h.illegalReg

theorem Ordered.done {c : Ctl} (hd : c.instrDone = true) : Ordered c :=
    ⟨fun _ => hd, fun _ => hd, fun _ => hd⟩

theorem states_ordered (r : Reg) (e : Execute1ToFPU) (done : Bool) {c : Ctl} (h : Ordered c) :
    Ordered (states r e done c) := by
  have hmffs : Ordered (doMffs r c) := by
    unfold doMffs
    split <;> exact Ordered.done rfl
  cases hs : r.state <;> simp only [states, hs] <;>
    first
    | exact hmffs
    | exact h.same rfl rfl rfl rfl
    | exact Ordered.done rfl
    | skip
  all_goals
    simp only [add3, div2, div3, div4, div5, div6, doFadd, doFcfid, doFcmp, doFcti, doFmadd, doFri,
      doFsel, doFtdiv, doIdivmod, finish, fmadd0, fmadd4, fmadd5, fmadd6, ftdiv1,
      idivClza3, idivDiv, idivDiv3, idivDiv4, idivDiv5, idivDiv8, idivDiv9, idivDodiv, idivExtdiv2,
      idivExtdiv4, idivExtdiv6, idivModadj, idivNr0, idivNr1, idivNr2, intCheck, intFinal, mult1,
      roundOflow, roundUflow, rounding, rounding2, rounding3, sqrt11, sqrt12, sqrt3, sqrt4, sqrt6,
      sqrt7, sqrt8, sqrt9]
    split_ifs <;> first | exact h.same rfl rfl rfl rfl | exact Ordered.done rfl

section Reachable

variable {r : Reg}

theorem Orderly.base (h : Orderly r) (e : Execute1ToFPU) : Ordered (base r e) := by
  have hback : ∀ {b : Bool}, (b = true → r.instrDone = true) →
      (b && !outputsSeen r) = true → (r.instrDone && !outputsSeen r) = true := by
    intro b hb hopen
    rw [Bool.and_eq_true] at hopen ⊢
    exact ⟨hb hopen.1, hopen.2⟩
  exact ⟨hback h.writingFpr, fun hi => Bool.noConfusion hi, hback h.illegal⟩

theorem Orderly.ctl (h : Orderly r) (e : Execute1ToFPU) (done : Bool) : Ordered (ctl r e done) := by
  have hs := states_ordered r e done (h.base e)
  unfold Fpu.ctl
  cases hcyc : r.cycle1Ar with
  | false =>
      unfold specialCases
      rw [hcyc]
      exact hs
  | true =>
      have ho := specialCases_overrides (c := states r e done (Fpu.base r e)) hcyc
      exact hs.same ho.writingFpr ho.illegal ho.illegalReg ho.instrDone

/-- A rising edge keeps the registers orderly. -/
theorem Orderly.rin (h : Orderly r) (e : Execute1ToFPU) (t : BitVec 19) (m : MultiplyOutput) :
    Orderly (rin r e t m) := by
  have hc := h.ctl e m.valid
  refine ⟨fun hw => ?_, fun hi => ?_⟩
  · change ((Fpu.ctl r e m.valid).writingFpr || delivers r (Fpu.ctl r e m.valid)) = true at hw
    show ((Fpu.ctl r e m.valid).instrDone || arithDone r (Fpu.ctl r e m.valid)) = true
    rw [Bool.or_eq_true] at hw ⊢
    refine hw.imp hc.writingFpr fun hd => ?_
    unfold delivers at hd
    rw [Bool.and_eq_true] at hd
    exact hd.1
  · change (if ends r (Fpu.ctl r e m.valid) then (Fpu.ctl r e m.valid).illegal
      else (Fpu.ctl r e m.valid).illegalReg) = true at hi
    show ((Fpu.ctl r e m.valid).instrDone || arithDone r (Fpu.ctl r e m.valid)) = true
    rw [Bool.or_eq_true]
    split_ifs at hi
    · exact Or.inl (hc.illegal hi)
    · exact Or.inl (hc.illegalReg hi)

/-- From a state that is orderly, a reset state for example, every run stays orderly. -/
theorem orderly_trace {lut : BitVec 10 → BitVec 18} {u : Machine} (h : Orderly u.reg)
    (ins : Nat → Inputs) (n : Nat) : Orderly (Clocked.trace (Machine.step lut) u ins n).reg := by
  induction n with
  | zero => exact h
  | succ n ih =>
      rw [Clocked.trace, Machine.step]
      dsimp only
      split_ifs
      · exact ⟨fun hw => Bool.noConfusion hw, fun hi => Bool.noConfusion hi⟩
      · exact ih.rin _ _ _

end Reachable

section Accept

variable {r : Reg} {e : Execute1ToFPU} {t : BitVec 19} {m : MultiplyOutput}

theorem IsArith.computes (he : IsArith e) : computes (execState e) = true := by
  have hall : ∀ b : BitVec 5, Fpu.computes (arithDecode b) = true ∨ arithDecode b = .doIllegal := by
    decide
  have hex : execState e = arithDecode (arithBits e) := by
    unfold execState
    rw [he.op]
  rw [hex]
  exact (hall (arithBits e)).resolve_right (hex ▸ he.legal)

theorem outputsSeen_rin : outputsSeen (rin r e t m) =
    (nextInstrDone r (ctl r e m.valid) && !e.stall) := by
  simp only [outputsSeen, rin, rinOf]
  cases nextInstrDone r (ctl r e m.valid) <;> cases nextIllegal r (ctl r e m.valid) <;>
    cases e.stall <;> simp

/-- The capture of an arithmetic instruction. -/
theorem Ready.acceptArith (hr : Ready r) (ho : Orderly r) (he : IsArith e)
    (hstall : e.stall = false) :
    Computing (rin r e t m) ∧ (rin r e t m).i.feMode = (e.feMode != 0) ∧
      (rin r e t m).i.destFpr = e.frt ∧ (rin r e t m).invalid = false ∧
      (∀ x : Exc, x.isSet (rin r e t m).fpscr = x.isSet r.fpscr) ∧
      ∀ k < 8, (rin r e t m).fpscr.getLsbD k = r.fpscr.getLsbD k := by
  have hctl := ctl_idle (e := e) hr m.valid
  have hbase : (ctl r e m.valid).fpscr = r.fpscr := by
    rw [hctl]
    simp [idle, base, hr.cycle1Ar]
  have hcc : (ctl r e m.valid).setFpcc = false := by
    rw [hctl]
    rfl
  have hquiet : arithDone r (ctl r e m.valid) = false := by
    rw [hctl]
    rfl
  have hends : ends r (ctl r e m.valid) = false := by simp [ends, hr.state]
  have hdone : nextInstrDone r (ctl r e m.valid) = (r.instrDone && !outputsSeen r) := by
    rw [hctl]
    simp [nextInstrDone, idle, base, arithDone]
  have hseen : outputsSeen (rin r e t m) = (r.instrDone && !outputsSeen r) := by
    rw [outputsSeen_rin, hdone, hstall, Bool.not_false, Bool.and_true]
  have hf : (rin r e t m).fpscr = Fpu.nextFpscr r (ctl r e m.valid) := rfl
  refine ⟨⟨?_, ?_, ?_, ?_, ?_, ?_⟩, ?_, ?_, ?_, fun x => ?_, fun k hk => ?_⟩
  · have hstate : (rin r e t m).state = if isNanInf e || isZeroDen e then .doSpecial
        else execState e := by
      show (if ends r (ctl r e m.valid) then .idle else (ctl r e m.valid).state) = _
      rw [hends, hctl]
      simp [idle, he.valid]
    rw [hstate]
    split_ifs
    · rfl
    · exact he.computes
  · have hexec : (rin r e t m).execState = execState e := by
      simp [rin, rinOf, accepts, hr.state, he.valid]
    rw [hexec]
    exact he.computes
  · simp [rin, rinOf, hends, accepts, hr.state, he.valid]
  · intro h
    rw [hseen, ← hdone]
    exact h
  · intro h
    have hw : (rin r e t m).writingFpr = (r.writingFpr && !outputsSeen r) := by
      show ((ctl r e m.valid).writingFpr || delivers r (ctl r e m.valid)) = _
      rw [delivers, hquiet, hctl]
      simp [idle, base]
    rw [hw, Bool.and_eq_true] at h
    rw [hseen, ho.writingFpr h.1, h.2]
    rfl
  · intro h
    have hi : (rin r e t m).illegal = (r.illegal && !outputsSeen r) := by
      show nextIllegal r (ctl r e m.valid) = _
      rw [nextIllegal, hends, hctl]
      simp [idle, base]
    rw [hi, Bool.and_eq_true] at h
    rw [hseen, ho.illegal h.1, h.2]
    rfl
  · simp [rin, rinOf, he.valid, captured]
  · simp [rin, rinOf, he.valid, captured]
  · simp [rin, rinOf, hctl, nextInvalid, idle, base]
  · rw [hf, isSet_nextFpscr hcc, hbase]
  · rw [hf, control_nextFpscr hcc hk, hbase]

/-- FEX tells of an exception that is enabled and set. -/
theorem fex_rin : (rin r e t m).fpscr.getLsbD fpscrFex = true ↔
    ∃ x : Exc, x.enabled (rin r e t m).fpscr = true ∧ x.isSet (rin r e t m).fpscr = true := by
  obtain ⟨fx, oldExc, f, hf⟩ : ∃ fx oldExc f, (rin r e t m).fpscr = summarize fx oldExc f :=
    ⟨_, _, _, rfl⟩
  have hset : ∀ x : Exc, x.isSet (summarize fx oldExc f) = x.isSet f := by
    refine fun x => Exc.isSet_congr fun k hk => getLsbD_summarize _ _ _ ?_
    revert k
    cases x <;> decide
  have hen : ∀ x : Exc, x.enabled (summarize fx oldExc f) = x.enabled f := by
    refine Exc.enabled_congr fun k hk => getLsbD_summarize _ _ _ ?_
    unfold fpscrVx
    omega
  rw [hf, fex_iff]
  exact exists_congr fun x => by rw [hset, hen]

end Accept

/-! ## A run -/

section Run

variable (lut : BitVec 10 → BitVec 18) (u : Machine) (ins : Nat → Inputs)

/-- The exception is raised in one of the first `n` cycles. -/
def Occurs (n : Nat) (x : Exc) : Prop :=
  ∃ k < n, x.raised (regs lut u ins k) = true

/-- An enabled invalid operation or an enabled division by zero occurs. -/
def Blocked (n : Nat) : Prop :=
  (Occurs lut u ins n .invalid ∧ Exc.invalid.enabled u.reg.fpscr = true) ∨
    (Occurs lut u ins n .zeroDivide ∧ Exc.zeroDivide.enabled u.reg.fpscr = true)

/-- The exceptions that are enabled are not set at the start and do not occur. -/
def NoneEnabled (n : Nat) : Prop :=
  ∀ x : Exc, x.enabled u.reg.fpscr = true →
    x.isSet u.reg.fpscr = false ∧ ¬Occurs lut u ins n x

/-- The exceptions after `n` cycles. -/
structure Exceptions (n : Nat) : Prop where
  isSet : ∀ x : Exc, x.isSet (regs lut u ins n).fpscr = true ↔
    x.isSet u.reg.fpscr = true ∨ Occurs lut u ins n x
  control : ∀ k < 8, (regs lut u ins n).fpscr.getLsbD k = u.reg.fpscr.getLsbD k

/-- The instruction is in progress after `n` cycles. -/
structure InProgress (n : Nat) : Prop where
  computing : Computing (regs lut u ins n)
  feMode : (regs lut u ins n).i.feMode = ((ins 0).eIn.feMode != 0)
  destFpr : (regs lut u ins n).i.destFpr = (ins 0).eIn.frt
  invalid : (regs lut u ins n).invalid = true ↔ Occurs lut u ins n .invalid
  zeroDivide : ¬Occurs lut u ins n .zeroDivide

/-- The instruction is done after `n` cycles. -/
def Done (n : Nat) : Prop :=
  ∃ writes, (writes = true ↔ ¬Blocked lut u ins n) ∧
    Ended writes ((ins 0).eIn.feMode != 0) (ins 0).eIn.frt (regs lut u ins n)

variable {lut u ins}

theorem occurs_succ {n : Nat} {x : Exc} : Occurs lut u ins (n + 1) x ↔
    Occurs lut u ins n x ∨ x.raised (regs lut u ins n) = true := by
  unfold Occurs
  constructor
  · rintro ⟨k, hk, h⟩
    rcases Nat.lt_succ_iff_lt_or_eq.mp hk with hlt | rfl
    · exact Or.inl ⟨k, hlt, h⟩
    · exact Or.inr h
  · rintro (⟨k, hk, h⟩ | h)
    · exact ⟨k, by omega, h⟩
    · exact ⟨n, by omega, h⟩

theorem Ready.not_raised {r : Reg} (h : Ready r) (x : Exc) : x.raised r = false := by
  unfold Exc.raised
  rw [h.cycle1Ar]
  exact arises_of_unmarked x (by rw [h.state]; rfl)

theorem Exceptions.enabled {n : Nat} (h : Exceptions lut u ins n) (x : Exc) :
    x.enabled (regs lut u ins n).fpscr = x.enabled u.reg.fpscr :=
  Exc.enabled_congr h.control x

theorem Exceptions.advance {n : Nat} (h : Exceptions lut u ins n)
    (ha : Advances (regs lut u ins n) (regs lut u ins (n + 1))) : Exceptions lut u ins (n + 1) := by
  refine ⟨fun x => ?_, fun k hk => (ha.control k hk).trans (h.control k hk)⟩
  rw [ha.isSet, Bool.or_eq_true, h.isSet, occurs_succ, or_assoc]

theorem Driven.started (h : Driven lut u ins) (hr : Ready u.reg) (ho : Orderly u.reg)
    (he : IsArith (ins 0).eIn) : Exceptions lut u ins 1 ∧ InProgress lut u ins 1 := by
  obtain ⟨est, mul, hnext⟩ := h.regs_succ 0
  obtain ⟨hcomp, hfe, hdest, hinv, hset, hctl⟩ :=
    Ready.acceptArith (t := est) (m := mul) hr ho he (h.valid 0 he.valid).2
  change regs lut u ins 1 = rin u.reg _ est mul at hnext
  have hno : ∀ x : Exc, ¬Occurs lut u ins 1 x := by
    rintro x ⟨k, hk, hx⟩
    obtain rfl : k = 0 := by omega
    have := hr.not_raised x
    rw [show regs lut u ins 0 = u.reg from rfl, this] at hx
    cases hx
  rw [← hnext] at hcomp hfe hdest hinv hset hctl
  refine ⟨⟨fun x => ?_, hctl⟩, hcomp, hfe, hdest, ?_, hno _⟩
  · rw [hset]
    simp [hno x]
  · rw [hinv]
    simp [hno .invalid]

/-- The instruction goes on or is done. -/
theorem InProgress.next {n : Nat} (hd : Driven lut u ins) (hx : Exceptions lut u ins n)
    (h : InProgress lut u ins n) :
    Exceptions lut u ins (n + 1) ∧
      (InProgress lut u ins (n + 1) ∧ outputsSeen (regs lut u ins (n + 1)) = false ∨
        Done lut u ins (n + 1)) := by
  obtain ⟨est, mul, hnext⟩ := hd.regs_succ n
  have hv := hd.not_valid h.computing.busy
  have hadv := h.computing.advances (t := est) (m := mul) hv
  rw [← hnext] at hadv
  refine ⟨hx.advance hadv, ?_⟩
  cases ha : arithDone (regs lut u ins n) (ctl (regs lut u ins n) (ins n).eIn mul.valid) with
  | false =>
      left
      obtain ⟨hcomp, hseen⟩ := h.computing.goesOn (t := est) ha hv
      rw [← hnext] at hcomp hseen
      refine ⟨⟨hcomp, ?_, ?_, ?_, ?_⟩, hseen⟩
      · rw [hadv.i, h.feMode]
      · rw [hadv.i, h.destFpr]
      · rw [hadv.invalid, Bool.or_eq_true, h.invalid, occurs_succ]
      · rw [occurs_succ]
        rintro (hz | hz)
        · exact h.zeroDivide hz
        · have hc := h.computing.computed (e := (ins n).eIn) mul.valid
          have := hc.divides (hc.zeroDivide.trans hz)
          simp [arithDone, this] at ha
  | true =>
      right
      have hend := h.computing.finish (t := est) ha hv
      rw [← hnext, h.feMode, h.destFpr] at hend
      refine ⟨_, ?_, hend⟩
      have hz : ¬Occurs lut u ins n .zeroDivide := h.zeroDivide
      unfold Blocked holdsBack
      rw [occurs_succ, occurs_succ, ← h.invalid, hx.enabled, hx.enabled]
      simp only [hz, false_or, Bool.not_eq_true', ← Bool.not_eq_true, Bool.or_eq_true,
        Bool.and_eq_true]

theorem Done.next {n : Nat} (hd : Driven lut u ins) (hx : Exceptions lut u ins n)
    (h : Done lut u ins n) (hseen : outputsSeen (regs lut u ins n) = false) :
    Exceptions lut u ins (n + 1) ∧ Done lut u ins (n + 1) := by
  obtain ⟨est, mul, hnext⟩ := hd.regs_succ n
  obtain ⟨writes, hw, hend⟩ := h
  obtain ⟨hend', hset, hctl⟩ := hend.wait (t := est) (m := mul) hseen fun hv => (hd.valid n hv).2
  rw [← hnext] at hend' hset hctl
  have hsame : ∀ x : Exc, Occurs lut u ins (n + 1) x ↔ Occurs lut u ins n x := by
    intro x
    rw [occurs_succ, (hend.ready hseen).not_raised x]
    simp
  refine ⟨⟨fun x => ?_, fun k hk => (hctl k hk).trans (hx.control k hk)⟩, writes, ?_, hend'⟩
  · rw [hset, hx.isSet, hsame]
  · unfold Blocked
    rw [hsame, hsame, hw]
    rfl

/-- A result is not seen before the instruction completes. -/
theorem Completes.unseen {n : Nat} (hc : Completes lut u ins n) {k : Nat} (hk2 : 2 ≤ k)
    (hlt : k < n) (hdone : Done lut u ins k) : outputsSeen (regs lut u ins k) = false := by
  by_contra hs
  have hopen := hc.first k hk2 hlt
  obtain ⟨_, _, hend⟩ := hdone
  rw [(hend.seen (by simpa using hs)).1] at hopen
  cases hopen

theorem Completes.run {n : Nat} (hc : Completes lut u ins n) (hd : Driven lut u ins)
    (hr : Ready u.reg) (ho : Orderly u.reg) (he : IsArith (ins 0).eIn) {k : Nat} (hk : 1 ≤ k)
    (hkn : k ≤ n) : Exceptions lut u ins k ∧
      (InProgress lut u ins k ∧ (2 ≤ k → outputsSeen (regs lut u ins k) = false) ∨
        2 ≤ k ∧ Done lut u ins k) := by
  induction k, hk using Nat.le_induction with
  | base =>
      obtain ⟨hx, hp⟩ := hd.started hr ho he
      exact ⟨hx, Or.inl ⟨hp, fun h => absurd h (by decide)⟩⟩
  | succ k hk ih =>
      obtain ⟨hx, ⟨hp, -⟩ | ⟨hk2, hdone⟩⟩ := ih (by omega)
      · obtain ⟨hx', ⟨hp', hseen⟩ | hdone⟩ := hp.next hd hx
        · exact ⟨hx', Or.inl ⟨hp', fun _ => hseen⟩⟩
        · exact ⟨hx', Or.inr ⟨by omega, hdone⟩⟩
      · obtain ⟨hx', hdone'⟩ := hdone.next hd hx (hc.unseen hk2 (by omega) hdone)
        exact ⟨hx', Or.inr ⟨by omega, hdone'⟩⟩

/-- An instruction that completes is done. -/
theorem Completes.done {n : Nat} (hc : Completes lut u ins n) (hd : Driven lut u ins)
    (hr : Ready u.reg) (ho : Orderly u.reg) (he : IsArith (ins 0).eIn) :
    Exceptions lut u ins n ∧ Done lut u ins n := by
  have htwo := hc.two_le
  obtain ⟨hx, ⟨-, hseen⟩ | ⟨-, hdone⟩⟩ := hc.run hd hr ho he (k := n) (by omega) le_rfl
  · have := hseen htwo
    simp [outputsSeen, hc.complete] at this
  · exact ⟨hx, hdone⟩

end Run

/-! ## Another exception mode -/

/-- The registers for another exception mode. -/
def Reg.withMode (r : Reg) (fe intr : Bool) : Reg :=
  { r with i := { r.i with feMode := fe }, doIntr := intr }

/-- The instruction for another MSR[FE0, FE1]. -/
def Execute1ToFPU.withFe (e : Execute1ToFPU) (fe : BitVec 2) : Execute1ToFPU :=
    { e with feMode := fe }

/-- The run in which the instruction of the first cycle has another MSR[FE0, FE1]. -/
def runFe (ins : Nat → Inputs) (fe : BitVec 2) (n : Nat) : Inputs :=
  { ins n with eIn := (ins n).eIn.withFe (if n = 0 then fe else (ins n).eIn.feMode) }

section Modes

variable {r : Reg} {e : Execute1ToFPU} {fe intr : Bool} {fm : BitVec 2} {t : BitVec 19}
  {m : MultiplyOutput}

theorem base_withMode (hi : (r.complete || intr) = outputsSeen r) :
    base (r.withMode fe intr) (e.withFe fm) = base r e := by
  have hseen : outputsSeen (r.withMode fe intr) = outputsSeen r := hi
  unfold base
  rw [hseen]
  rfl

theorem execState_withFe : execState (e.withFe fm) = execState e := rfl

theorem isNanInf_withFe : isNanInf (e.withFe fm) = isNanInf e := rfl

theorem isZeroDen_withFe : isZeroDen (e.withFe fm) = isZeroDen e := rfl

theorem states_withMode (done : Bool) (c : Ctl) :
    states (r.withMode fe intr) (e.withFe fm) done c = states r e done c := by
  have hreg : states (r.withMode fe intr) (e.withFe fm) done c = states r (e.withFe fm) done c :=
    rfl
  rw [hreg]
  unfold states
  rw [execState_withFe, isNanInf_withFe, isZeroDen_withFe]
  rfl

theorem specialCases_withMode (c : Ctl) :
    specialCases (r.withMode fe intr) c = specialCases r c := rfl

/-- The control does not depend on the exception mode. -/
theorem ctl_withMode (hi : (r.complete || intr) = outputsSeen r) (done : Bool) :
    ctl (r.withMode fe intr) (e.withFe fm) done = ctl r e done := by
  unfold ctl
  rw [base_withMode hi, specialCases_withMode, states_withMode]

theorem raised_withMode (x : Exc) : x.raised (r.withMode fe intr) = x.raised r := rfl

theorem fpResult_withMode : fpResult (r.withMode fe intr) = fpResult r := rfl

theorem rin_withMode (fe : Bool) (e : Execute1ToFPU) (fm : BitVec 2) (t : BitVec 19)
    (m : MultiplyOutput) (hi : (r.complete || intr) = outputsSeen r) :
    ∃ fe' intr', rin (r.withMode fe intr) (e.withFe fm) t m = (rin r e t m).withMode fe' intr' ∧
      ((rin r e t m).complete || intr') = outputsSeen (rin r e t m) := by
  have hseen : outputsSeen (r.withMode fe intr) = outputsSeen r := hi
  have hctl : ctl (r.withMode fe intr) (e.withFe fm) m.valid = ctl r e m.valid := ctl_withMode hi _
  have hout := outputsSeen_rin (r := r.withMode fe intr) (e := e.withFe fm) (t := t) (m := m)
  have hrin : rin (r.withMode fe intr) (e.withFe fm) t m = (rin r e t m).withMode
      (rin (r.withMode fe intr) (e.withFe fm) t m).i.feMode
      (rin (r.withMode fe intr) (e.withFe fm) t m).doIntr := by
    unfold rin
    have hv : (e.withFe fm).valid = e.valid := rfl
    rw [hctl]
    unfold rinOf
    rw [hseen, hv]
    cases e.valid <;> rfl
  refine ⟨_, _, hrin, ?_⟩
  rw [hctl, hrin] at hout
  rw [outputsSeen_rin]
  exact hout

variable {lut : BitVec 10 → BitVec 18} {u : Machine} {ins : Nat → Inputs}

theorem step_withMode (lut : BitVec 10 → BitVec 18) (fe : Bool) (fm : BitVec 2) (v : Machine)
    (j : Inputs) (hrst : j.rst = false) (hflush : j.flushIn = false)
    (hi : (v.reg.complete || intr) = outputsSeen v.reg) : ∃ fe' intr',
    Machine.step lut { v with reg := v.reg.withMode fe intr } { j with eIn := j.eIn.withFe fm } =
      { Machine.step lut v j with reg := (Machine.step lut v j).reg.withMode fe' intr' } ∧
      ((Machine.step lut v j).reg.complete || intr') = outputsSeen (Machine.step lut v j).reg := by
  obtain ⟨fe', intr', hrin, hseen⟩ := rin_withMode fe j.eIn fm v.inverseEst v.multiply.out hi
  have hctl : ctl (v.reg.withMode fe intr) (j.eIn.withFe fm) v.multiply.out.valid =
      ctl v.reg j.eIn v.multiply.out.valid := ctl_withMode hi _
  have hreg : (Machine.step lut v j).reg = rin v.reg j.eIn v.inverseEst v.multiply.out := by
    simp [Machine.step, hrst, hflush]
  refine ⟨fe', intr', ?_, by rw [hreg, hseen]⟩
  rw [hreg, ← hrin]
  unfold Machine.step
  simp only [hrst, hflush, hctl, Bool.or_self, Bool.false_eq_true, if_false]
  rfl

/-- The registers of the two runs differ in the exception mode and in `do_intr`. -/
theorem Driven.trace_runFe (h : Driven lut u ins) (fm : BitVec 2) (n : Nat) : ∃ fe intr,
    Clocked.trace (Machine.step lut) u (runFe ins fm) n =
      { Clocked.trace (Machine.step lut) u ins n with reg := (regs lut u ins n).withMode fe intr } ∧
      ((regs lut u ins n).complete || intr) = outputsSeen (regs lut u ins n) := by
  induction n with
  | zero => exact ⟨u.reg.i.feMode, u.reg.doIntr, rfl, rfl⟩
  | succ n ih =>
      obtain ⟨fe, intr, htrace, hseen⟩ := ih
      obtain ⟨fe', intr', hstep, hseen'⟩ := step_withMode lut fe
        (if n = 0 then fm else (ins n).eIn.feMode)
        (Clocked.trace (Machine.step lut) u ins n) (ins n) (h.rst n) (h.flushIn n) hseen
      refine ⟨fe', intr', ?_, hseen'⟩
      rw [Clocked.trace, htrace]
      exact hstep

theorem Driven.regs_runFe (h : Driven lut u ins) (fm : BitVec 2) (n : Nat) : ∃ fe intr,
    regs lut u (runFe ins fm) n = (regs lut u ins n).withMode fe intr := by
  obtain ⟨fe, intr, htrace, -⟩ := h.trace_runFe fm n
  exact ⟨fe, intr, congrArg Machine.reg htrace⟩

theorem Driven.inMode (h : Driven lut u ins) (fm : BitVec 2) : Driven lut u (runFe ins fm) := by
  refine ⟨h.rst, h.flushIn, fun n hv => ?_⟩
  obtain ⟨fe, intr, hregs⟩ := h.regs_runFe fm n
  rw [hregs]
  exact h.valid n hv

theorem Completes.inMode {n : Nat} (hc : Completes lut u ins n) (h : Driven lut u ins)
    (fm : BitVec 2) :
    Completes lut u (runFe ins fm) n := by
  have hsame : ∀ k, (regs lut u (runFe ins fm) k).complete = (regs lut u ins k).complete := by
    intro k
    obtain ⟨fe, intr, hregs⟩ := h.regs_runFe fm k
    rw [hregs]
    rfl
  refine ⟨hc.two_le,
    (hsame n).trans hc.complete, fun k hk hlt => (hsame k).trans (hc.first k hk hlt)⟩

end Modes

/-! ## The target register -/

/-- A register after writeback. -/
def target (dest : BitVec 6) (old : BitVec 64) (w : Option Writeback.WritebackToRegisterFile) :
    BitVec 64 :=
  match w with
  | some w => if w.writeReg = dest then w.writeData else old
  | none => old

/-- Execute1 and loadstore1 neither write a register nor raise an interrupt. -/
structure Quiet (x : Execute1.Execute1ToWriteback) (l : Writeback.Loadstore1ToWriteback) :
    Prop where
  interrupt : x.interrupt = false
  writeEnable : x.writeEnable = false
  interrupt' : l.interrupt = false
  writeEnable' : l.writeEnable = false

section Target

variable (lut : BitVec 10 → BitVec 18) (u : Machine) (ins : Nat → Inputs)

/-- Whatever MSR[FE0, FE1] is, the target has its old value if an enabled invalid operation or an
enabled division by zero occurs, and the result if not. -/
def DeliversResult (n : Nat) : Prop :=
  ∀ fe x l old, Quiet x l →
    (Blocked lut u ins n → target (ins 0).eIn.frt old
      (Writeback.wOut x l (wOut (regs lut u (runFe ins fe) n))) = old) ∧
    (¬Blocked lut u ins n → target (ins 0).eIn.frt old
      (Writeback.wOut x l (wOut (regs lut u (runFe ins fe) n))) = fpResult (regs lut u ins n))

variable {lut u ins}

theorem target_wOut {x : Execute1.Execute1ToWriteback} {l : Writeback.Loadstore1ToWriteback}
    (hq : Quiet x l) {r : Reg} (dest : BitVec 6) (hc : r.complete = true) (hw : r.writeReg = dest)
    (old : BitVec 64) : target dest old (Writeback.wOut x l (wOut r)) =
      if r.writingFpr && !r.doIntr then fpResult r else old := by
  unfold Writeback.wOut Writeback.intr
  simp only [hq.interrupt, hq.interrupt', hq.writeEnable, hq.writeEnable', wOut, hc, Bool.and_true,
    Bool.false_or, Bool.false_eq_true, if_false]
  cases r.doIntr <;> cases r.writingFpr <;> simp [target, hw]

/-- FEX is set at the end if an enabled exception is set at the start or occurs. -/
theorem Exceptions.fex {n : Nat} (h : Exceptions lut u ins (n + 1)) (hd : Driven lut u ins) :
    (regs lut u ins (n + 1)).fpscr.getLsbD fpscrFex = false ↔ NoneEnabled lut u ins (n + 1) := by
  obtain ⟨est, mul, hnext⟩ := hd.regs_succ n
  have hfex : (regs lut u ins (n + 1)).fpscr.getLsbD fpscrFex = true ↔ ∃ x : Exc,
      x.enabled (regs lut u ins (n + 1)).fpscr = true ∧
        x.isSet (regs lut u ins (n + 1)).fpscr = true := by
    rw [hnext]
    exact fex_rin
  rw [← Bool.not_eq_true, hfex]
  unfold NoneEnabled
  simp only [h.enabled, h.isSet, not_exists, not_and, not_or, Bool.not_eq_true]

end Target

/-- An overflow or an underflow that is enabled adjusts the exponent and keeps the mantissa. -/
structure Adjusts (r r' : Reg) : Prop where
  overflow : r.state = .roundOflow → r.fpscr.getLsbD fpscrOe = true →
    r'.state = .rounding ∧ r'.resultExp = r.resultExp - biasExp r ∧ r'.r = r.r
  underflow : r.state = .roundUflow → r.fpscr.getLsbD fpscrUe = true →
    (r'.state = .rounding ∨ r'.state = .normalize) ∧ r'.resultExp = r.resultExp + biasExp r ∧
      r'.r = r.r

theorem Computing.adjusts {r : Reg} {e : Execute1ToFPU} {t : BitVec 19} {m : MultiplyOutput}
    (h : Computing r) (hcyc : r.cycle1Ar = false) : Adjusts r (rin r e t m) := by
  have hdone : (base r e).instrDone = false := Computing.seen_of h.taken
  have hgo : ∀ c : Ctl, c.instrDone = (base r e).instrDone → c.arithDone = false →
      c.rclsOp ≠ .tzero →
      ends r c = false := by
    intro c h1 h2 h3
    simp [ends, nextInstrDone, arithDone, h1, h2, h3, hdone]
  refine ⟨fun hs hen => ?_, fun hs hen => ?_⟩
  · have hctl : ctl r e m.valid = roundOflow r (base r e) := by
      rw [ctl_of_not_cycle1Ar hcyc]
      unfold states
      rw [hs]
    have hends : ends r (roundOflow r (base r e)) = false := by
      refine hgo _ ?_ ?_ ?_ <;> simp [roundOflow, hen, base]
    refine ⟨?_, ?_, ?_⟩
    · simp only [rin, rinOf, hctl, hends]
      simp [roundOflow, hen]
    · simp only [rin, rinOf, hctl]
      simp [roundOflow, hen, rexpSum, notExp, base]
      omega
    · simp only [rin, rinOf, hctl]
      simp [roundOflow, hen]
  · have hctl : ctl r e m.valid = roundUflow r (base r e) := by
      rw [ctl_of_not_cycle1Ar hcyc]
      unfold states
      rw [hs]
    have hends : ends r (roundUflow r (base r e)) = false := by
      refine hgo _ ?_ ?_ ?_ <;> simp only [roundUflow, hen] <;> split_ifs <;> simp_all [base]
    refine ⟨?_, ?_, ?_⟩
    · simp only [rin, rinOf, hctl, hends]
      simp only [roundUflow, hen]
      split_ifs <;> simp_all
    · simp only [rin, rinOf, hctl]
      simp only [roundUflow, hen]
      split_ifs <;> simp_all [rexpSum, notExp, base]
    · simp only [rin, rinOf, hctl]
      simp only [roundUflow, hen]
      split_ifs <;> simp_all

theorem Ready.adjusts {r r' : Reg} (h : Ready r) : Adjusts r r' := by
  constructor <;> intro hs <;> rw [h.state] at hs <;> cases hs

section Delivery

variable {lut : BitVec 10 → BitVec 18} {u : Machine} {ins : Nat → Inputs}

/-- What an exception mode makes of the target. -/
theorem Completes.target_eq {n : Nat} (hc : Completes lut u ins n) (hd : Driven lut u ins)
    (hr : Ready u.reg) (ho : Orderly u.reg) (he : IsArith (ins 0).eIn) (fe : BitVec 2)
    {x : Execute1.Execute1ToWriteback} {l : Writeback.Loadstore1ToWriteback} (hq : Quiet x l)
    (old : BitVec 64) : ∃ writes, (writes = true ↔ ¬Blocked lut u ins n) ∧
      target (ins 0).eIn.frt old (Writeback.wOut x l (wOut (regs lut u (runFe ins fe) n))) =
        if writes && !((regs lut u ins n).fpscr.getLsbD fpscrFex && fe != 0)
        then fpResult (regs lut u ins n) else old := by
  have hraised : ∀ k (x : Exc),
      x.raised (regs lut u (runFe ins fe) k) = x.raised (regs lut u ins k) := by
    intro k x
    obtain ⟨f, intr, hregs⟩ := hd.regs_runFe fe k
    rw [hregs, raised_withMode]
  have hblocked : Blocked lut u (runFe ins fe) n ↔ Blocked lut u ins n := by
    simp only [Blocked, Occurs, hraised]
  obtain ⟨f, intr, hregs⟩ := hd.regs_runFe fe n
  have he' : IsArith (runFe ins fe 0).eIn := ⟨he.valid, he.op, he.legal⟩
  obtain ⟨-, writes, hw, hend⟩ := (hc.inMode hd fe).done (hd.inMode fe) hr ho he'
  have hseen : outputsSeen (regs lut u (runFe ins fe) n) = true := by
    simp [outputsSeen, (hc.inMode hd fe).complete]
  obtain ⟨hcomp, hintr⟩ := hend.seen hseen
  refine ⟨writes, hw.trans (not_congr hblocked), ?_⟩
  have hfpscr : (regs lut u (runFe ins fe) n).fpscr = (regs lut u ins n).fpscr := by
    rw [hregs]
    rfl
  have htarget := target_wOut hq _ hcomp hend.writeReg old
  rw [hend.writingFpr, hintr, hfpscr, hregs, fpResult_withMode, ← hregs] at htarget
  exact htarget

/-- Execute1 and loadstore1 with nothing to deliver. -/
theorem exists_quiet : ∃ x l, Quiet x l := by
  let xerc : Execute1.XerCommon := ⟨false, false, false, false, false⟩
  exact ⟨.init, ⟨false, ⟨0, false⟩, false, 0, 0, xerc, false, false, false, 0, 0⟩, rfl,
    rfl, rfl, rfl⟩

end Delivery

/-- The target of an arithmetic instruction has the value that it is to have, for every exception
mode, if and only if no enabled exception is set or occurs, or an enabled invalid operation or
division by zero keeps the result back: an enabled overflow, underflow or inexact result is not
written if the exception mode is not 0.  Enabled overflows and underflows adjust the exponent. -/
theorem arith_delivers_iff (lut : BitVec 10 → BitVec 18) (u : Machine)
    (ins : Nat → Inputs) (n : Nat)
    (hready : Ready u.reg) (horderly : Orderly u.reg) (hdriven : Driven lut u ins)
    (hinsn : IsArith (ins 0).eIn) (hcompletes : Completes lut u ins n) :
    (DeliversResult lut u ins n ↔ Blocked lut u ins n ∨ NoneEnabled lut u ins n) ∧
      ∀ k < n, (regs lut u ins k).cycle1Ar = false →
        Adjusts (regs lut u ins k) (regs lut u ins (k + 1)) := by
  have htwo := hcompletes.two_le
  have hfex : (regs lut u ins n).fpscr.getLsbD fpscrFex = false ↔ NoneEnabled lut u ins n := by
    obtain ⟨m, rfl⟩ : ∃ m, n = m + 1 := ⟨n - 1, by omega⟩
    exact (hcompletes.done hdriven hready horderly hinsn).1.fex hdriven
  refine ⟨⟨fun hdel => ?_, fun hcond fe x l old hq => ?_⟩, fun k hk hcyc => ?_⟩
  · by_contra hno
    rw [not_or, ← hfex, Bool.not_eq_false] at hno
    obtain ⟨hblocked, hset⟩ := hno
    obtain ⟨x, l, hq⟩ := exists_quiet
    -- an old value that the result cannot be
    obtain ⟨writes, -, heq⟩ := hcompletes.target_eq hdriven hready horderly hinsn 1 hq
      (~~~fpResult (regs lut u ins n))
    have hres := (hdel 1 x l (~~~fpResult (regs lut u ins n)) hq).2 hblocked
    rw [heq, hset] at hres
    simp at hres
  · obtain ⟨writes, hw, heq⟩ := hcompletes.target_eq hdriven hready horderly hinsn fe hq old
    rw [heq]
    constructor
    · intro hb
      have hoff : writes = false := by
        by_contra hon
        exact hw.mp (by simpa using hon) hb
      simp [hoff]
    · intro hb
      rw [hw.mpr hb, hfex.mpr (hcond.resolve_left hb)]
      simp
  · obtain ⟨est, mul, hnext⟩ := hdriven.regs_succ k
    rcases Nat.eq_zero_or_pos k with rfl | hpos
    · exact hready.adjusts
    · obtain ⟨-, ⟨hp, -⟩ | ⟨hk2, hdone⟩⟩ :=
        hcompletes.run hdriven hready horderly hinsn hpos hk.le
      · rw [hnext]
        exact hp.computing.adjusts hcyc
      · obtain ⟨_, _, hend⟩ := id hdone
        exact (hend.ready (hcompletes.unseen hk2 hk hdone)).adjusts

/-- `frsp` of a double-precision number, to `f1`. -/
def frsp (b : BitVec 64) : Execute1ToFPU :=
  { Execute1ToFPU.none with
    valid := true
    op := .fpArith
    insn := 0xfc200018
    single := true
    frb := b
    validB := true
    frt := 33 }

/-- The unit with its registers cleared but for the FPSCR. -/
def Machine.coldWith (fpscr : BitVec 32) : Machine :=
  { Machine.cold with reg := { Reg.cold with fpscr := fpscr } }

theorem driven_onlyInsn {lut : BitVec 10 → BitVec 18} {u : Machine} {e : Execute1ToFPU}
    (hb : u.reg.busy = false) (hs : e.stall = false) : Driven lut u (onlyInsn e) := by
  refine ⟨fun _ => rfl, fun _ => rfl, fun n hv => ?_⟩
  by_cases hn : n = 0
  · subst hn
    exact ⟨hb, hs⟩
  · simp [onlyInsn, hn, Execute1ToFPU.none] at hv

/-- One is rounded with all exceptions enabled. -/
theorem arith_delivers_one :
    DeliversResult (fun _ => 0) (.coldWith 0xf8) (onlyInsn (frsp 0x3ff0000000000000)) 4 := by
  have hcompletes : Completes (fun _ => 0) (.coldWith 0xf8)
      (onlyInsn (frsp 0x3ff0000000000000)) 4 :=
    ⟨by decide, by decide +kernel, by decide +kernel⟩
  refine (arith_delivers_iff _ _ _ _ ⟨rfl, rfl⟩ ⟨fun h => h, fun h => h⟩
    (driven_onlyInsn rfl rfl) ⟨rfl, rfl, by decide⟩ hcompletes).1.mpr (Or.inr fun x _ => ⟨?_, ?_⟩)
  · cases x <;> rfl
  · unfold Occurs
    cases x <;> decide +kernel

/-- 2 ^ 200 overflows; with OE and MSR[FE1] its result is lost. -/
theorem overflow_lost :
    Completes (fun _ => 0) (.coldWith 0x40) (onlyInsn (frsp 0x4c70000000000000)) 5 ∧
      ¬DeliversResult (fun _ => 0) (.coldWith 0x40) (onlyInsn (frsp 0x4c70000000000000)) 5 := by
  refine ⟨⟨by decide, by decide +kernel, by decide +kernel⟩, fun hdel => ?_⟩
  obtain ⟨x, l, hq⟩ := exists_quiet
  -- without the exception mode the result is written, so that nothing keeps it back
  have hwritten := target_wOut hq (r := regs (fun _ => 0) (.coldWith 0x40)
    (runFe (onlyInsn (frsp 0x4c70000000000000)) 0) 5) 33 (by decide +kernel)
    (by decide +kernel) 0
  have hlost := target_wOut hq (r := regs (fun _ => 0) (.coldWith 0x40)
    (runFe (onlyInsn (frsp 0x4c70000000000000)) 1) 5) 33 (by decide +kernel)
    (by decide +kernel) 0
  rw [if_pos (by decide +kernel)] at hwritten
  rw [if_neg (by decide +kernel)] at hlost
  by_cases hb : Blocked (fun _ => 0) (.coldWith 0x40) (onlyInsn (frsp 0x4c70000000000000)) 5
  · have hold := (hdel 0 x l 0 hq).1 hb
    have hne : fpResult (regs (fun _ => 0) (.coldWith 0x40)
        (runFe (onlyInsn (frsp 0x4c70000000000000)) 0) 5) ≠ 0 := by decide +kernel
    exact hne (hwritten.symm.trans hold)
  · have hres := (hdel 1 x l 0 hq).2 hb
    have hne : (0 : BitVec 64) ≠ fpResult (regs (fun _ => 0) (.coldWith 0x40)
        (onlyInsn (frsp 0x4c70000000000000)) 5) := by decide +kernel
    exact hne (hlost.symm.trans hres)

end Microwatt.Fpu
